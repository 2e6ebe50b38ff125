import LambdaSharing.Proofs.Comparison.Equivalence
import LambdaSharing.Sharing.Registry

/-!
# What a submission does

A submission either leaves the registry as it was, or adds the lambda to one
class, or starts a class with it (`Registry.submit_cases`). To find the class
it looks at little: which lambda every class began with and under which
fingerprint, the *leader* of the class, and to which class every lambda was
assigned. The rest of a plan is for those who read it later. So it is said
here what each change does to leaders and assignments, and what a search
among given classes comes to.

A search keeps one comparer, and counts its comparisons while it makes them.
Neither makes a difference to what is found among further classes. What it
comes to can therefore be said class by class, as one comparison and then the
search among the rest (`Registry.searchOn_eq`).
-/

namespace LambdaSharing

/-- Classes have different numbers. -/
theorem ClassId.toNat_index_inj {c d : ClassId} (h : c.index.toNat = d.index.toNat) : c = d := by
  cases c
  cases d
  exact congrArg ClassId.mk (UInt32.toNat_inj.1 h)

/-! ## Leaders -/

namespace Plan

variable {p : Plan} {reports : Reports} {l m : LambdaId} {captures : List SymbolId}
  {id id' : ClassId} {c : SharingClass} {hash : UInt64} {method : Method} {search : Search}

/-- The first lambda of a class, and the fingerprint of the class. -/
def leader? (p : Plan) (id : ClassId) : Option (LambdaId × UInt64) :=
  (p.class? id).map fun c => (c.canonical, c.hash)

/-- The leader is the one of the class with the number. -/
theorem leader?_eq_some_iff :
    p.leader? id = some (m, hash) ↔
      ∃ c, p.class? id = some c ∧ c.canonical = m ∧ c.hash = hash := by
  unfold leader?
  simp only [Option.map_eq_some_iff, Prod.mk.injEq]

/-- A class has one leader. -/
theorem leader?_unique {m' : LambdaId} {hash' : UInt64} (h : p.leader? id = some (m, hash))
    (h' : p.leader? id = some (m', hash')) : m = m' :=
  (Prod.mk.inj (Option.some.inj (h.symm.trans h'))).1

/-- A lambda is found under the leader of the class it is assigned to. -/
theorem canonical?_eq_some_iff {x : Reference} :
    p.canonical? l = some x ↔
      p.assignments[l]? = some x.classId ∧
        ∃ hash, p.leader? x.classId = some (x.canonical, hash) := by
  unfold canonical?
  simp only [Option.bind_eq_bind, Option.bind_eq_some_iff, Option.pure_def, Option.some.injEq,
    leader?_eq_some_iff]
  constructor
  · rintro ⟨id, hid, c, hc, rfl⟩
    exact ⟨hid, c.hash, c, hc, rfl, rfl⟩
  · rintro ⟨hid, _, c, hc, hcanonical, -⟩
    exact ⟨x.classId, hid, c, hc, by rw [hcanonical]⟩

/-- The number of a class says which class it is. -/
theorem eq_of_classId_eq {x y : Reference} (hx : p.canonical? l = some x)
    (hy : p.canonical? m = some y) (hclass : x.classId = y.classId) : x = y := by
  obtain ⟨-, hash, hleader⟩ := canonical?_eq_some_iff.1 hx
  obtain ⟨-, hash', hleader'⟩ := canonical?_eq_some_iff.1 hy
  rw [hclass] at hleader
  cases x
  cases y
  rw [Reference.mk.injEq]
  exact ⟨hclass, leader?_unique hleader hleader'⟩

/-! ### Counting -/

@[simp] theorem leader?_count : (p.count search).leader? id = p.leader? id := rfl

@[simp] theorem assignments_count : (p.count search).assignments = p.assignments := rfl

@[simp] theorem size_classes_count : (p.count search).classes.size = p.classes.size := rfl

/-! ### Adding to a class -/

/-- Adding to a class leaves its leader and those of all others. -/
@[simp] theorem leader?_fold :
    (p.fold reports l captures id c).leader? id' = p.leader? id' := by
  unfold leader? class? fold
  rw [Array.getElem?_modify]
  by_cases h : id.index.toNat = id'.index.toNat
  · rw [if_pos h, Option.map_map]
    rfl
  · rw [if_neg h]

@[simp] theorem size_classes_fold :
    (p.fold reports l captures id c).classes.size = p.classes.size :=
  Array.size_modify

/-! ### Starting a class -/

/-- A class that is started gets a number that no class has, as long as
there are numbers left. -/
theorem index_nextClass (h : p.classes.size < UInt32.size) :
    p.nextClass.index.toNat = p.classes.size := by
  show (UInt32.ofNat p.classes.size).toNat = p.classes.size
  rw [UInt32.toNat_ofNat', Nat.mod_eq_of_lt h]

/-- Starting a class adds a leader and leaves those of all others. -/
theorem leader?_create (h : p.classes.size < UInt32.size) :
    (p.create reports l captures hash method).leader? id =
      if id = p.nextClass then some (l, hash) else p.leader? id := by
  have hnext := index_nextClass h
  unfold leader? class? create
  rw [Array.getElem?_push]
  by_cases hid : id = p.nextClass
  · rw [if_pos hid, hid, if_pos hnext]
    rfl
  · have hne : id.index.toNat ≠ p.classes.size := fun heq =>
      hid (ClassId.toNat_index_inj (heq.trans hnext.symm))
    rw [if_neg hid, if_neg hne]

/-- No class has the next number. -/
theorem leader?_nextClass (h : p.classes.size < UInt32.size) : p.leader? p.nextClass = none := by
  unfold leader? class?
  rw [index_nextClass h, Array.getElem?_eq_none (Nat.le_refl _), Option.map_none]

@[simp] theorem size_classes_create :
    (p.create reports l captures hash method).classes.size = p.classes.size + 1 :=
  Array.size_push _

/-- What is assigned after one more assignment. -/
theorem getElem?_insert_assignments :
    (p.assignments.insert l id)[m]? = if m = l then some id else p.assignments[m]? := by
  rw [Std.ExtTreeMap.getElem?_insert]
  simp only [Std.compare_eq_iff_eq, eq_comm (a := l)]

end Plan

/-! ## Searching -/

namespace Search

variable {s t u : Search}

/-- The search that makes one comparison and finds nothing. -/
def single (reports : Reports) (trace : Trace) : Search := ({} : Search).record reports trace

/-- What a search comes to together with another one, which goes on where it has
found nothing. -/
def followedBy (s further : Search) : Search where
  found := further.found
  comparisons := s.comparisons + further.comparisons
  collisions := s.collisions + further.collisions
  traces := s.traces ++ further.traces

theorem followedBy_assoc : (s.followedBy t).followedBy u = s.followedBy (t.followedBy u) := by
  simp [followedBy, Nat.add_assoc, Array.append_assoc]

/-- **To record a comparison is to go on by it.** -/
theorem record_eq (hs : s.found = none) (reports : Reports) (trace : Trace) :
    s.record reports trace = s.followedBy (single reports trace) := by
  unfold followedBy single record
  rw [Search.mk.injEq]
  refine ⟨hs, rfl, ?_, ?_⟩
  · cases trace.outcome.isEquivalent <;> rfl
  · cases reports.comparisons with
    | true => exact Array.push_eq_append
    | false => exact Array.append_empty.symm

end Search

namespace Registry

variable {a : Arena} {r : Registry a} {l : LambdaId}

/-- One comparison of a search, after those that were made before. -/
theorem searchOn_cons_of_some {id : ClassId} {ids : List ClassId} {c : SharingClass} {s : Search}
    (h : r.draft.class? id = some c) :
    r.searchOn l (.new r.options.policy r.options.maxDepth) s (id :: ids) =
      a.compareLambdas r.options.policy r.options.maxDepth l c.canonical >>= fun outcome =>
        let s := s.record r.options.reports ⟨l, c.canonical, outcome⟩
        if outcome.isEquivalent then .ok { s with found := some (id, c) }
        else r.searchOn l (.new r.options.policy r.options.maxDepth) s ids := by
  rw [searchOn]
  simp only [h, Comparer.compareLambdas_new]
  rfl

/-- **What was compared before makes no difference to a search**: the comparer
is as good as a new one, and the counts and records are those of a search from
the beginning, behind the earlier ones. -/
theorem searchOn_eq (ids : List ClassId) {s : Search} (hs : s.found = none) :
    r.searchOn l (.new r.options.policy r.options.maxDepth) s ids =
      (r.searchAmong l ids).map s.followedBy := by
  unfold searchAmong
  -- for any beginning, as every comparison becomes part of the beginning of the rest
  induction ids generalizing s with
  | nil =>
    show _ = Except.ok (Search.mk _ _ _ _)
    rw [searchOn, Array.append_empty, ← hs]
    rfl
  | cons id ids ih =>
    cases hclass : r.draft.class? id with
    | none =>
      rw [searchOn, searchOn, hclass]
      exact ih hs
    | some c =>
      rw [searchOn_cons_of_some hclass, searchOn_cons_of_some hclass, map_of_bind]
      refine congrArg (a.compareLambdas _ _ l c.canonical >>= ·) (funext fun outcome => ?_)
      let one := Search.single r.options.reports ⟨l, c.canonical, outcome⟩
      have hrecord : s.record r.options.reports ⟨l, c.canonical, outcome⟩ = s.followedBy one :=
        Search.record_eq hs _ _
      show ite _ _ _ = (ite _ (Except.ok { one with found := some (id, c) })
        (r.searchOn l _ one ids)).map s.followedBy
      rw [hrecord]
      by_cases hequivalent : outcome.isEquivalent = true
      · rw [if_pos hequivalent, if_pos hequivalent]
        rfl
      · rw [if_neg hequivalent, if_neg hequivalent, ih (s := s.followedBy one) rfl,
          ih (s := one) rfl, map_of_map]
        exact congrArg (Except.map · _) (funext fun _ => Search.followedBy_assoc)

/-- A number without a class is passed over. -/
theorem searchAmong_cons_of_none {id : ClassId} {ids : List ClassId}
    (h : r.draft.class? id = none) : r.searchAmong l (id :: ids) = r.searchAmong l ids := by
  unfold searchAmong
  rw [searchOn, h]

/-- A lambda is compared with the first one of a class, and with those of the
further classes if the two are not equivalent. -/
theorem searchAmong_cons_of_some {id : ClassId} {ids : List ClassId} {c : SharingClass}
    (h : r.draft.class? id = some c) :
    r.searchAmong l (id :: ids) =
      a.compareLambdas r.options.policy r.options.maxDepth l c.canonical >>= fun outcome =>
        let one := Search.single r.options.reports ⟨l, c.canonical, outcome⟩
        if outcome.isEquivalent then .ok { one with found := some (id, c) }
        else (r.searchAmong l ids).map one.followedBy := by
  rw [searchAmong, searchOn_cons_of_some h]
  refine congrArg (a.compareLambdas _ _ l c.canonical >>= ·) (funext fun outcome => ?_)
  exact congrArg (ite _ _) (searchOn_eq ids rfl)

/-- What a search comes to whose first class is given: a number without a
class is passed over, and the search ends at a class whose first lambda the
lambda is equivalent to. -/
theorem searchAmong_cons_eq_ok_iff {id : ClassId} {ids : List ClassId} {s : Search} :
    r.searchAmong l (id :: ids) = .ok s ↔
      (r.draft.class? id = none ∧ r.searchAmong l ids = .ok s) ∨
        ∃ c outcome, r.draft.class? id = some c ∧
          a.compareLambdas r.options.policy r.options.maxDepth l c.canonical = .ok outcome ∧
          ((outcome = .equivalent ∧
              s = { Search.single r.options.reports ⟨l, c.canonical, outcome⟩ with
                found := some (id, c) }) ∨
            (outcome ≠ .equivalent ∧ ∃ further, r.searchAmong l ids = .ok further ∧
              s = (Search.single r.options.reports ⟨l, c.canonical, outcome⟩).followedBy
                further)) := by
  cases hclass : r.draft.class? id with
  | none => simp [searchAmong_cons_of_none hclass]
  | some c =>
    rw [searchAmong_cons_of_some hclass]
    simp only [bind_eq_ok_iff, reduceCtorEq, false_and, false_or, Option.some.injEq,
      exists_and_left, exists_eq_left']
    refine exists_congr fun outcome => and_congr_right fun _ => ?_
    cases outcome with
    | equivalent => simp [Outcome.isEquivalent, eq_comm]
    | diverged d =>
      simp only [Outcome.isEquivalent, Bool.false_eq_true, if_false, map_eq_ok_iff,
        reduceCtorEq, false_and, false_or, ne_eq, not_false_eq_true, true_and, eq_comm (b := s)]

/-- **A search finds a class whose first lambda the lambda is equivalent
to.** -/
theorem equivalent_of_searchAmong {ids : List ClassId} {s : Search} {id : ClassId}
    {c : SharingClass} (h : r.searchAmong l ids = .ok s) (hfound : s.found = some (id, c)) :
    r.draft.class? id = some c ∧
      a.Equivalent r.options.policy r.options.maxDepth l c.canonical := by
  induction ids generalizing s with
  | nil =>
    rw [searchAmong] at h
    rw [← Except.ok.inj h] at hfound
    cases hfound
  | cons id' ids ih =>
    rcases searchAmong_cons_eq_ok_iff.1 h with ⟨-, h⟩ | ⟨c', outcome, hclass, houtcome, hcases⟩
    · exact ih h hfound
    · rcases hcases with ⟨rfl, rfl⟩ | ⟨-, further, hfurther, rfl⟩
      · obtain ⟨rfl, rfl⟩ := Prod.mk.inj (Option.some.inj hfound)
        exact ⟨hclass, houtcome⟩
      · exact ih hfurther hfound

/-- **A search that finds nothing went through all the classes**, and the
lambda is not equivalent to the first lambda of any. -/
theorem not_equivalent_of_searchAmong {ids : List ClassId} {s : Search} {id : ClassId}
    {c : SharingClass} (h : r.searchAmong l ids = .ok s) (hfound : s.found = none)
    (hid : id ∈ ids) (hclass : r.draft.class? id = some c) :
    ¬ a.Equivalent r.options.policy r.options.maxDepth l c.canonical := by
  induction ids generalizing s with
  | nil => cases hid
  | cons id' ids ih =>
    rcases searchAmong_cons_eq_ok_iff.1 h with
      ⟨hnone, h⟩ | ⟨c', outcome, hclass', houtcome, hcases⟩
    · rcases List.mem_cons.1 hid with rfl | hid
      · rw [hnone] at hclass
        cases hclass
      · exact ih h hfound hid
    · rcases hcases with ⟨-, rfl⟩ | ⟨hdiverged, further, hfurther, rfl⟩
      · cases hfound
      · rcases List.mem_cons.1 hid with rfl | hid
        · obtain rfl := Option.some.inj (hclass.symm.trans hclass')
          intro hequivalent
          exact hdiverged (Except.ok.inj (houtcome.symm.trans hequivalent))
        · exact ih hfurther hfound hid

/-- All comparisons of a search found a divergence, except one if a class was
found; and no class is compared with twice. -/
theorem comparisons_of_searchAmong {ids : List ClassId} {s : Search}
    (h : r.searchAmong l ids = .ok s) :
    s.comparisons = s.collisions + s.found.toList.length ∧ s.comparisons ≤ ids.length := by
  induction ids generalizing s with
  | nil =>
    rw [searchAmong] at h
    rw [← Except.ok.inj h]
    exact ⟨rfl, Nat.le_refl _⟩
  | cons id ids ih =>
    rcases searchAmong_cons_eq_ok_iff.1 h with ⟨-, h⟩ | ⟨c, outcome, -, -, hcases⟩
    · obtain ⟨hlength, hle⟩ := ih h
      exact ⟨hlength, Nat.le_succ_of_le hle⟩
    · rcases hcases with ⟨rfl, rfl⟩ | ⟨hdiverged, further, hfurther, rfl⟩
      · exact ⟨rfl, Nat.succ_le_succ (Nat.zero_le _)⟩
      · obtain ⟨hlength, hle⟩ := ih hfurther
        cases outcome with
        | equivalent => exact absurd rfl hdiverged
        | diverged d =>
          show 1 + further.comparisons = 1 + further.collisions + further.found.toList.length ∧
            1 + further.comparisons ≤ ids.length + 1
          omega

/-- A search stops with a fault only if some comparison does. -/
theorem searchAmong_isOk {ids : List ClassId}
    (h : ∀ id ∈ ids, ∀ c, r.draft.class? id = some c →
      ∃ outcome, a.compareLambdas r.options.policy r.options.maxDepth l c.canonical =
        .ok outcome) :
    ∃ s, r.searchAmong l ids = .ok s := by
  induction ids with
  | nil => exact ⟨_, rfl⟩
  | cons id ids ih =>
    obtain ⟨s, hs⟩ := ih fun id' hid' => h id' (List.mem_cons_of_mem id hid')
    cases hclass : r.draft.class? id with
    | none => exact ⟨s, (searchAmong_cons_of_none hclass).trans hs⟩
    | some c =>
      obtain ⟨outcome, houtcome⟩ := h id List.mem_cons_self c hclass
      rw [searchAmong_cons_of_some hclass, houtcome, hs]
      by_cases hequivalent : outcome.isEquivalent
      · exact ⟨_, if_pos hequivalent⟩
      · exact ⟨_, if_neg hequivalent⟩

/-! ## Examining -/

/-- A lambda is read, hashed, and searched for in the bucket of its
fingerprint. -/
theorem examine_eq (r : Registry a) (l : LambdaId) :
    r.examine l = (do
      let s ← a.scope l
      let hash ← a.lambdaHash r.options.maxDepth l
      (if r.options.deduplicate then r.searchAmong l (r.bucket hash) else .ok {}) >>=
        fun search => .ok ⟨s.lambda, hash, search⟩) := by
  unfold examine
  cases r.options.deduplicate <;> rfl

/-- A lambda passes its examination if it is registered, has a fingerprint,
and the search of its bucket comes to an end. -/
theorem examine_eq_ok_iff {e : Examination} :
    r.examine l = .ok e ↔
      (∃ s, a.scope l = .ok s ∧ e.lambda = s.lambda) ∧
        a.lambdaHash r.options.maxDepth l = .ok e.hash ∧
        (if r.options.deduplicate then r.searchAmong l (r.bucket e.hash) else .ok {}) =
          .ok e.search := by
  rw [examine_eq]
  simp only [bind_eq_ok_iff, Except.ok.injEq]
  constructor
  · rintro ⟨s, hs, hash, hhash, search, hsearch, rfl⟩
    exact ⟨⟨s, hs, rfl⟩, hhash, hsearch⟩
  · rintro ⟨⟨s, hs, hlambda⟩, hhash, hsearch⟩
    exact ⟨s, hs, e.hash, hhash, e.search, hsearch, by rw [← hlambda]⟩

/-- **An examination searches a bucket**, or no class at all if nothing is to be
shared. -/
theorem exists_searchAmong_of_examine {e : Examination} (h : r.examine l = .ok e) :
    ∃ ids, ids <+: r.bucket e.hash ∧ r.searchAmong l ids = .ok e.search := by
  obtain ⟨-, -, hsearch⟩ := examine_eq_ok_iff.1 h
  by_cases hshared : r.options.deduplicate = true
  · rw [if_pos hshared] at hsearch
    exact ⟨_, List.prefix_rfl, hsearch⟩
  · rw [if_neg hshared] at hsearch
    exact ⟨[], List.nil_prefix, hsearch⟩

/-- What is compared in an examination is compared in the search of a
bucket. -/
theorem comparisons_of_examine {e : Examination} (h : r.examine l = .ok e) :
    e.search.comparisons = e.search.collisions + e.search.found.toList.length ∧
      e.search.comparisons ≤ (r.bucket e.hash).length := by
  obtain ⟨ids, hids, hsearch⟩ := exists_searchAmong_of_examine h
  obtain ⟨hcomparisons, hle⟩ := comparisons_of_searchAmong hsearch
  exact ⟨hcomparisons, Nat.le_trans hle hids.length_le⟩

/-! ## Accepting -/

/-- A lambda whose class was found is added to it. -/
theorem accept_of_found {e : Examination} {id : ClassId} {c : SharingClass}
    (h : e.search.found = some (id, c)) :
    r.accept l e =
      (⟨id, c.canonical⟩,
        { r with
          phase := .populating
          draft := (r.draft.count e.search).fold r.options.reports l
            (e.lambda.captures.map (·.var)) id c }) := by
  rw [accept, h]

/-- A lambda whose class was not found starts one. -/
theorem accept_of_none {e : Examination} (h : e.search.found = none) :
    r.accept l e =
      (⟨r.draft.nextClass, l⟩,
        { r with
          phase := .populating
          buckets := r.buckets.insert e.hash (r.bucket e.hash ++ [r.draft.nextClass])
          ordinals := r.ordinals.insert e.lambda.owner (r.ordinals.getD e.lambda.owner 0 + 1)
          draft := (r.draft.count e.search).create r.options.reports l
            (e.lambda.captures.map (·.var)) e.hash
            ⟨e.lambda.owner, r.ordinals.getD e.lambda.owner 0⟩ }) := by
  rw [accept, h]
  rfl

section Accept

variable {e : Examination} {id id' : ClassId} {c : SharingClass} {m : LambdaId} {hash : UInt64}

@[simp] theorem options_accept : (r.accept l e).2.options = r.options := by
  unfold accept
  cases e.search.found <;> rfl

@[simp] theorem phase_accept : (r.accept l e).2.phase = .populating := by
  unfold accept
  cases e.search.found <;> rfl

/-- The class that was found is answered. -/
theorem reference_accept_of_found (h : e.search.found = some (id, c)) :
    (r.accept l e).1 = ⟨id, c.canonical⟩ := by
  rw [accept_of_found h]

/-- If none was found, a new class with the lambda itself is answered. -/
theorem reference_accept_of_none (h : e.search.found = none) :
    (r.accept l e).1 = ⟨r.draft.nextClass, l⟩ := by
  rw [accept_of_none h]

/-- A new lambda is assigned to the class that is answered. -/
theorem assignments_accept_iff (hnew : r.draft.assignments[l]? = none) :
    (r.accept l e).2.draft.assignments[m]? = some id ↔
      (m = l ∧ id = (r.accept l e).1.classId) ∨ r.draft.assignments[m]? = some id := by
  have hinsert : (r.accept l e).2.draft.assignments[m]? =
      if m = l then some (r.accept l e).1.classId else r.draft.assignments[m]? := by
    unfold accept
    cases e.search.found with
    | some found => exact Plan.getElem?_insert_assignments
    | none => exact Plan.getElem?_insert_assignments
  rw [hinsert]
  by_cases hm : m = l
  · rw [if_pos hm, hm, hnew]
    simp [eq_comm]
  · rw [if_neg hm]
    simp [hm]

/-- No leader changes if a lambda is added to a class. -/
theorem leader?_accept_of_found (h : e.search.found = some (id, c)) :
    (r.accept l e).2.draft.leader? id' = r.draft.leader? id' := by
  rw [accept_of_found h, Plan.leader?_fold, Plan.leader?_count]

/-- A lambda that starts a class is its leader, and all others stay. -/
theorem leader?_accept_of_none_iff (h : e.search.found = none)
    (hsize : r.draft.classes.size < UInt32.size) :
    (r.accept l e).2.draft.leader? id = some (m, hash) ↔
      (id = r.draft.nextClass ∧ m = l ∧ hash = e.hash) ∨
        r.draft.leader? id = some (m, hash) := by
  have hcounted : (r.draft.count e.search).classes.size < UInt32.size := hsize
  have hnext : (r.draft.count e.search).nextClass = r.draft.nextClass := rfl
  rw [accept_of_none h, Plan.leader?_create hcounted, Plan.leader?_count, hnext]
  by_cases hid : id = r.draft.nextClass
  · rw [if_pos hid, hid, Plan.leader?_nextClass hsize]
    simp [eq_comm]
  · rw [if_neg hid]
    simp [hid]

/-- No bucket changes if a lambda is added to a class. -/
theorem bucket_accept_of_found (h : e.search.found = some (id, c)) :
    (r.accept l e).2.bucket hash = r.bucket hash := by
  rw [accept_of_found h]
  rfl

/-- A class that is started comes last in the bucket of its fingerprint. -/
theorem bucket_accept_of_none (h : e.search.found = none) :
    (r.accept l e).2.bucket hash =
      if hash = e.hash then r.bucket hash ++ [r.draft.nextClass] else r.bucket hash := by
  rw [accept_of_none h]
  unfold bucket
  rw [Std.ExtTreeMap.getD_insert]
  simp only [Std.compare_eq_iff_eq]
  by_cases hhash : hash = e.hash
  · rw [if_pos hhash.symm, if_pos hhash, hhash]
  · rw [if_neg (Ne.symm hhash), if_neg hhash]

/-- A class that is started is in the bucket of its fingerprint, and all
others stay where they are. -/
theorem mem_bucket_accept_of_none_iff (h : e.search.found = none) :
    id ∈ (r.accept l e).2.bucket hash ↔
      (id = r.draft.nextClass ∧ hash = e.hash) ∨ id ∈ r.bucket hash := by
  rw [bucket_accept_of_none h]
  by_cases hhash : hash = e.hash
  · rw [if_pos hhash, List.mem_append, List.mem_singleton, and_iff_left hhash, or_comm]
  · rw [if_neg hhash, or_iff_right fun hnext => hhash hnext.2]

end Accept

/-- **What a submission does.** It refuses and changes nothing, or it repeats
an earlier answer and changes nothing, or the lambda is new, passes its
examination and is accepted. -/
theorem submit_cases (r : Registry a) (l : LambdaId) :
    (∃ refusal, r.submit l = (.error refusal, r)) ∨
      (∃ x, r.canonical? l = some x ∧ r.submit l = (.ok x, r)) ∨
      ∃ e, r.phase ≠ .finalized ∧ r.canonical? l = none ∧ r.examine l = .ok e ∧
        r.submit l = (.ok (r.accept l e).1, (r.accept l e).2) := by
  by_cases hphase : r.phase = .finalized
  · exact .inl ⟨_, by rw [submit, if_pos hphase]⟩
  · rw [submit, if_neg hphase]
    cases hcanonical : r.canonical? l with
    | some x => exact .inr (.inl ⟨x, rfl, rfl⟩)
    | none =>
      cases hexamine : r.examine l with
      | error fault => exact .inl ⟨_, rfl⟩
      | ok e => exact .inr (.inr ⟨e, hphase, rfl, rfl, rfl⟩)

/-- A submission that is refused changes nothing. -/
theorem eq_of_submit_error {r' : Registry a} {refusal : Refusal}
    (h : r.submit l = (.error refusal, r')) : r' = r := by
  rcases submit_cases r l with ⟨_, heq⟩ | ⟨_, -, heq⟩ | ⟨_, -, -, -, heq⟩
  · rw [heq] at h
    exact (Prod.mk.inj h).2.symm
  · rw [heq] at h
    cases h
  · rw [heq] at h
    cases h

/-- A submission does not change what the registry was told. -/
theorem options_submit (r : Registry a) (l : LambdaId) : (r.submit l).2.options = r.options := by
  rcases submit_cases r l with ⟨_, heq⟩ | ⟨_, -, heq⟩ | ⟨_, -, -, -, heq⟩
  · rw [heq]
  · rw [heq]
  · rw [heq, options_accept]

/-- A submission does not end the phase in which lambdas are accepted. -/
theorem phase_submit (h : r.phase ≠ .finalized) : (r.submit l).2.phase ≠ .finalized := by
  rcases submit_cases r l with ⟨_, heq⟩ | ⟨_, -, heq⟩ | ⟨e, -, -, -, heq⟩
  · rwa [heq]
  · rwa [heq]
  · rw [heq, phase_accept]
    exact Phase.noConfusion

/-- Asking for the plan ends the life of a registry, and changes nothing
else. -/
theorem finalize_snd (r : Registry a) : r.finalize.2 = { r with phase := .finalized } := by
  unfold finalize
  by_cases hphase : r.phase = .finalized
  · rw [if_pos hphase, ← hphase]
  · rw [if_neg hphase]

theorem phase_finalize (r : Registry a) : r.finalize.2.phase = .finalized := by
  rw [finalize_snd]

end Registry

end LambdaSharing
