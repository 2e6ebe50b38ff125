import LambdaSharing.Proofs.Sharing.Acceptance
import LambdaSharing.Proofs.Sharing.Bookkeeping

/-!
# What a registry stores more than once

A registry says of a lambda in several places where it belongs: among the
members of a class, in the call sites, and in the table of assignments. The
classes that have a fingerprint can be read off from the classes as well as
from the buckets, and all counts but one could be had by counting. Whoever
reads the plan relies on all of these to say the same
(`Registry.Consistent`), and nothing would report it if they did not.

They do, after any sequence of requests (`Registry.consistent_run`). For a
registry keeps the ledger of what it answered, and in the plan of a ledger
each of these statements is one about the list of its entries: members, call
sites and assignments are this list, filtered or looked up in. Only that all
members have the fingerprint of the class is not a matter of bookkeeping; it
holds because the registry is coherent.
-/

namespace LambdaSharing

namespace Registry

variable {a : Arena} {r : Registry a} {g : Ledger}

/-- **A registry is consistent** about the lambdas that were accepted, in this
order. -/
structure Consistent (r : Registry a) (lambdas : List LambdaId) : Prop where
  /-- The number of a class is its place. -/
  numbered : ∀ {i : Nat} {c}, r.draft.classes[i]? = some c → c.id.index.toNat = i
  /-- The members of a class begin with the canonical lambda. -/
  headed : ∀ c ∈ r.draft.classes, c.members[0]? = some c.canonical
  /-- A lambda is accepted once. -/
  distinct : lambdas.Nodup
  /-- Over all classes, every accepted lambda is a member once. -/
  gathered : (r.draft.classes.toList.flatMap fun c => c.members.toList).Perm lambdas
  /-- A lambda is assigned to the class that it is a member of. -/
  assigned : ∀ {l id}, r.draft.assignments[l]? = some id ↔
    ∃ c, r.draft.class? id = some c ∧ l ∈ c.members
  /-- There is a call site for every accepted lambda, in order. -/
  called : r.draft.callSites.toList.map (·.lambda) = lambdas
  /-- A call site refers to the class of its lambda, and to its method. -/
  referred : ∀ site ∈ r.draft.callSites, ∃ c, r.draft.class? site.classId = some c ∧
    site.lambda ∈ c.members ∧ site.method = c.method
  /-- The members of a class are the lambdas of its call sites, in order. -/
  listed : ∀ c ∈ r.draft.classes, c.members.toList =
    (r.draft.callSites.toList.filter fun site => site.classId = c.id).map (·.lambda)
  /-- A bucket holds the classes with the fingerprint, in order of creation. -/
  bucketed : ∀ hash, r.bucket hash =
    (r.draft.classes.toList.filter fun c => c.hash = hash).map (·.id)
  /-- All members of a class have its fingerprint. -/
  hashed : ∀ c ∈ r.draft.classes, ∀ l ∈ c.members,
    a.lambdaHash r.options.maxDepth l = .ok c.hash
  submitted : r.draft.stats.submitted.toNat = r.draft.callSites.size
  created : r.draft.stats.classes.toNat = r.draft.classes.size
  /-- A lambda starts a class or is folded into one. -/
  sorted : r.draft.stats.submitted.toNat =
    r.draft.stats.classes.toNat + r.draft.stats.deduplicated.toNat
  /-- Every comparison finds a divergence or folds a lambda. -/
  compared : r.draft.stats.comparisons.toNat =
    r.draft.stats.collisions.toNat + r.draft.stats.deduplicated.toNat

namespace Keeps

/-! ## The parts of a plan, read off from a ledger -/

theorem classes_eq (h : r.Keeps g) :
    r.draft.classes = (g.classes.map (g.sharingClass a r.options)).toArray :=
  congrArg Plan.classes h.plan

theorem callSites_eq (h : r.Keeps g) :
    r.draft.callSites = (g.entries.map (g.site a)).toArray :=
  congrArg Plan.callSites h.plan

/-- A class of the plan is one of the ledger. -/
theorem mem_classes_iff (h : r.Keeps g) {c : SharingClass} :
    c ∈ r.draft.classes ↔ ∃ x ∈ g.classes, g.sharingClass a r.options x = c := by
  rw [h.classes_eq, List.mem_toArray, List.mem_map]

theorem mem_members_iff {l : LambdaId} {x : Reference} {o : Options} :
    l ∈ (g.sharingClass a o x).members ↔ (l, x) ∈ g.entries :=
  List.mem_toArray.trans Ledger.mem_members_iff

/-- The number of a class is its place. -/
theorem numbered (h : r.Keeps g) {i : Nat} {c : SharingClass}
    (hc : r.draft.classes[i]? = some c) : c.id.index.toNat = i := by
  rw [h.classes_eq, List.getElem?_toArray, List.getElem?_map, Option.map_eq_some_iff] at hc
  obtain ⟨x, hx, rfl⟩ := hc
  exact h.kept.toNat_classId hx

/-- The members of a class begin with the canonical lambda. -/
theorem headed (h : r.Keeps g) {c : SharingClass} (hc : c ∈ r.draft.classes) :
    c.members[0]? = some c.canonical := by
  obtain ⟨x, hx, rfl⟩ := h.mem_classes_iff.1 hc
  show (g.members x).toArray[0]? = some x.canonical
  rw [List.getElem?_toArray, ← List.head?_eq_getElem?, h.kept.head?_members hx]

/-- Over all classes, every accepted lambda is a member once. -/
theorem gathered (h : r.Keeps g) :
    (r.draft.classes.toList.flatMap fun c => c.members.toList).Perm g.lambdas := by
  rw [h.classes_eq, List.flatMap_map]
  exact h.kept.members_perm

/-- A lambda is assigned to the class that it is a member of. -/
theorem assigned (h : r.Keeps g) {l : LambdaId} {id : ClassId} :
    r.draft.assignments[l]? = some id ↔ ∃ c, r.draft.class? id = some c ∧ l ∈ c.members := by
  have hassignments : r.draft.assignments = g.assignments := congrArg Plan.assignments h.plan
  rw [hassignments, Ledger.getElem?_assignments h.kept, Option.map_eq_some_iff]
  constructor
  · rintro ⟨x, hx, rfl⟩
    have he := h.kept.reference?_eq_some_iff.1 hx
    exact ⟨_, h.class?_eq_some_iff.2 ⟨x, h.kept.mem_classes he, rfl, rfl⟩, mem_members_iff.2 he⟩
  · rintro ⟨c, hc, hl⟩
    obtain ⟨x, -, rfl, rfl⟩ := h.class?_eq_some_iff.1 hc
    exact ⟨x, h.kept.reference?_eq_some_iff.2 (mem_members_iff.1 hl), rfl⟩

/-- There is a call site for every accepted lambda, in order. -/
theorem called (h : r.Keeps g) : r.draft.callSites.toList.map (·.lambda) = g.lambdas := by
  rw [h.callSites_eq, List.map_map]
  rfl

/-- A call site refers to the class of its lambda, and to its method. -/
theorem referred (h : r.Keeps g) {site : CallSite} (hsite : site ∈ r.draft.callSites) :
    ∃ c, r.draft.class? site.classId = some c ∧ site.lambda ∈ c.members ∧
      site.method = c.method := by
  rw [h.callSites_eq, List.mem_toArray] at hsite
  obtain ⟨⟨l, x⟩, he, rfl⟩ := List.mem_map.1 hsite
  exact ⟨_, h.class?_eq_some_iff.2 ⟨x, h.kept.mem_classes he, rfl, rfl⟩, mem_members_iff.2 he, rfl⟩

/-- The members of a class are the lambdas of its call sites, in order. -/
theorem listed (h : r.Keeps g) {c : SharingClass} (hc : c ∈ r.draft.classes) :
    c.members.toList =
      (r.draft.callSites.toList.filter fun site => site.classId = c.id).map (·.lambda) := by
  obtain ⟨x, hx, rfl⟩ := h.mem_classes_iff.1 hc
  rw [h.callSites_eq, List.filter_map, List.map_map]
  show (g.entries.filter fun e => e.2 = x).map Prod.fst =
    (g.entries.filter fun e => e.2.classId = x.classId).map Prod.fst
  congr 1
  refine List.filter_congr fun e he => ?_
  rw [decide_eq_decide]
  exact ⟨congrArg _, h.kept.classId_inj (h.kept.mem_classes he) hx⟩

/-! ## Fingerprints -/

/-- The fingerprint of a class is that of its first lambda. -/
theorem lambdaHash_canonical (h : r.Keeps g) (hr : r.Coherent) {x : Reference}
    (hx : x ∈ g.classes) :
    a.lambdaHash r.options.maxDepth x.canonical = .ok (g.sharingClass a r.options x).hash :=
  hr.hashed (h.leader?_eq hx)

/-- All members of a class have its fingerprint. -/
theorem hashed (h : r.Keeps g) (hr : r.Coherent) {c : SharingClass} (hc : c ∈ r.draft.classes)
    {l : LambdaId} (hl : l ∈ c.members) : a.lambdaHash r.options.maxDepth l = .ok c.hash := by
  obtain ⟨x, hx, rfl⟩ := h.mem_classes_iff.1 hc
  have hcanonical : r.canonical? l = some x := by
    rw [h.canonical?_eq]
    exact h.kept.reference?_eq_some_iff.2 (mem_members_iff.1 hl)
  rw [(hr.alike_canonical hcanonical).lambdaHash_eq]
  exact h.lambdaHash_canonical hr hx

/-- A bucket holds the classes with the fingerprint, in order of creation. -/
theorem bucketed (h : r.Keeps g) (hr : r.Coherent) (hash : UInt64) :
    r.bucket hash = (r.draft.classes.toList.filter fun c => c.hash = hash).map (·.id) := by
  rw [h.bucket, h.classes_eq, List.filter_map, List.map_map]
  show _ = (g.classes.filter _).map (·.classId)
  congr 1
  refine List.filter_congr fun x hx => ?_
  rw [h.lambdaHash_canonical hr hx]
  show _ = decide ((g.sharingClass a r.options x).hash = hash)
  rw [decide_eq_decide, Except.ok.injEq]

/-! ## Counts -/

theorem toNat_submitted (h : r.Keeps g) :
    r.draft.stats.submitted.toNat = g.entries.length := by
  have hstats : r.draft.stats.submitted = UInt64.ofNat g.entries.length :=
    congrArg (·.stats.submitted) h.plan
  rw [hstats, h.kept.toNat_ofNat (Nat.le_refl _)]

theorem toNat_classes (h : r.Keeps g) : r.draft.stats.classes.toNat = g.classes.length := by
  have hstats : r.draft.stats.classes = UInt64.ofNat g.classes.length :=
    congrArg (·.stats.classes) h.plan
  rw [hstats, h.kept.toNat_ofNat (Ledger.length_entries ▸ Nat.le_add_right _ _)]

theorem toNat_deduplicated (h : r.Keeps g) : r.draft.stats.deduplicated.toNat = g.folded := by
  have hstats : r.draft.stats.deduplicated = UInt64.ofNat g.folded :=
    congrArg (·.stats.deduplicated) h.plan
  rw [hstats, h.kept.toNat_ofNat (Ledger.length_entries ▸ Nat.le_add_left _ _)]

/-- Every comparison finds a divergence or folds a lambda. -/
theorem compared (h : r.Keeps g) :
    r.draft.stats.comparisons.toNat =
      r.draft.stats.collisions.toNat + r.draft.stats.deduplicated.toNat := by
  obtain ⟨collisions, hcollisions, hcomparisons, hle⟩ := h.counted
  rw [h.toNat_deduplicated, hcollisions, hcomparisons, h.kept.toNat_ofNat_of_le hle,
    h.kept.toNat_ofNat_of_le (Nat.le_trans (Nat.le_add_right _ _) hle)]

/-- **A coherent registry that keeps a ledger is consistent.** -/
theorem consistent (h : r.Keeps g) (hr : r.Coherent) : r.Consistent g.lambdas where
  numbered := h.numbered
  headed _ := h.headed
  distinct := h.kept.nodup
  gathered := h.gathered
  assigned := h.assigned
  called := h.called
  referred _ := h.referred
  listed _ := h.listed
  bucketed := h.bucketed hr
  hashed _ hc _ := h.hashed hr hc
  submitted := by rw [h.toNat_submitted, h.callSites_eq, List.size_toArray, List.length_map]
  created := by rw [h.toNat_classes, h.classes_eq, List.size_toArray, List.length_map]
  sorted := by
    rw [h.toNat_submitted, h.toNat_classes, h.toNat_deduplicated, Ledger.length_entries]
  compared := h.compared

end Keeps

/-- **After any sequence of requests, a registry is consistent** about the
lambdas that it has accepted in answering them, and still does what it was
told. The accepted lambdas are those with a fingerprint that were submitted
before the plan was handed out. -/
theorem consistent_run (a : Arena) (o : Options) (requests : List Request) :
    ((new a o).run requests).2.options = o ∧
      ((new a o).run requests).2.Consistent (accepted requests ((new a o).run requests).1) ∧
      ∀ l, l ∈ accepted requests ((new a o).run requests).1 ↔
        .submit l ∈ requests.takeWhile (· ≠ .finalize) ∧
          ∃ hash, a.lambdaHash o.maxDepth l = .ok hash := by
  have hnew : Reachable o (new a o) := .new
  have hreachable := hnew.run requests
  refine ⟨hreachable.options_eq, ?_, ?_⟩
  · have hlambdas := Ledger.lambdas_recordAll (g := {}) [] rfl requests
      ((new a o).run requests).1
    rw [accepted, ← List.nil_append (acceptances _ _), hlambdas]
    exact ((Keeps.new a o).run requests).consistent hreachable.coherent
  · intro l
    rw [accepted, List.mem_eraseDups]
    exact mem_acceptances_run_iff hnew Phase.noConfusion requests

end Registry

end LambdaSharing
