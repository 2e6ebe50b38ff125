import LambdaSharing.Proofs.Sharing.Checking
import LambdaSharing.Proofs.Sharing.Folding
import LambdaSharing.Proofs.Sharing.Partition
import LambdaSharing.Proofs.Sharing.Units

/-!
# Groups of lambdas and their classes

The contract on groups is about lambdas two by two, in both orders, and says
nothing of classes, plans or an order of submission. A registry, on the other
hand, compares a lambda with few others, and which lambda represents a class
depends on the order. Still the one decides the other: if no pair of lambdas
breaks the contract, and the first lambda of every group is submitted before
its others, then the classes of the registry are the groups, each represented
by its first lambda, and the plan meets the contract on plans
(`Registry.check_of_checkGroups`).

There are two halves to it. What the contract on groups comes to is said
without reference to pairs (`checkGroups_eq_nil_iff`): lambdas of one group
are equivalent, and lambdas of different groups have different fingerprints.
So a registry that was given the members of groups has sorted them by groups
(`Registry.sortedBy_submitAll`), as a lambda is referred to the first one in
the order of submission that it is equivalent to. What such a registry folds,
and how many classes it has, is then a matter of lists.
-/

namespace LambdaSharing

/-! ## The contract on groups -/

/-- Two lambdas are told apart by their fingerprints. -/
def Arena.ToldApart (a : Arena) (limit : Nat) (l m : LambdaId) : Prop :=
  ∃ x y, a.lambdaHash limit l = .ok x ∧ a.lambdaHash limit m = .ok y ∧ x ≠ y

namespace Arena.ToldApart

variable {a : Arena} {limit : Nat} {l m : LambdaId}

theorem symm (h : a.ToldApart limit l m) : a.ToldApart limit m l := by
  obtain ⟨x, y, hx, hy, hne⟩ := h
  exact ⟨y, x, hy, hx, hne.symm⟩

/-- Lambdas that are told apart are not equivalent. -/
theorem not_equivalent {policy : CapturePolicy} (h : a.ToldApart limit l m) :
    ¬ a.Equivalent policy limit l m := by
  obtain ⟨x, y, hx, hy, hne⟩ := h
  intro hequivalent
  rw [hequivalent.lambdaHash_eq, hy] at hx
  exact hne (Except.ok.inj hx).symm

/-- No lambda is told apart from itself. -/
theorem irrefl : ¬ a.ToldApart limit l l := by
  rintro ⟨x, y, hx, hy, hne⟩
  rw [hx] at hy
  exact hne (Except.ok.inj hy)

end Arena.ToldApart

section Checks

variable {a : Arena} {o : Options} {l m : LambdaId}

/-- Pairs are in order if each of them is. -/
theorem checkPairs_eq_nil_iff {check : LambdaId → LambdaId → Except Fault (List GroupViolation)}
    {pairs : List (LambdaId × LambdaId)} :
    checkPairs check pairs = .ok [] ↔ ∀ l m, (l, m) ∈ pairs → check l m = .ok [] := by
  induction pairs with
  | nil => simp [checkPairs]
  | cons pair rest ih =>
    obtain ⟨l, m⟩ := pair
    have hcons : checkPairs check ((l, m) :: rest) = .ok [] ↔
        check l m = .ok [] ∧ checkPairs check rest = .ok [] := by
      rw [checkPairs]
      simp only [bind_eq_ok_iff, pure_eq, Except.ok.injEq, List.append_eq_nil_iff]
      constructor
      · rintro ⟨_, hcheck, _, hrest, rfl, rfl⟩
        exact ⟨hcheck, hrest⟩
      · rintro ⟨hcheck, hrest⟩
        exact ⟨[], hcheck, [], hrest, rfl, rfl⟩
    rw [hcons, ih]
    simp only [List.mem_cons, Prod.mk.injEq]
    constructor
    · rintro ⟨hcheck, hrest⟩ l' m' (⟨rfl, rfl⟩ | hmem)
      · exact hcheck
      · exact hrest l' m' hmem
    · intro h
      exact ⟨h l m (.inl ⟨rfl, rfl⟩), fun l' m' hmem => h l' m' (.inr hmem)⟩

/-- Two lambdas of one group are in order if they are equivalent. Their
fingerprints need not be looked at. -/
theorem checkEqual_eq_nil_iff :
    checkEqual a o l m = .ok [] ↔ a.Equivalent o.policy o.maxDepth l m := by
  unfold checkEqual Arena.Equivalent
  cases houtcome : a.compareLambdas o.policy o.maxDepth l m with
  | error fault => simp
  | ok outcome =>
    cases outcome with
    | diverged d => simp [pure_eq]
    | equivalent =>
      obtain ⟨⟨hash, hl, hm⟩, -⟩ := fingerprints_eq_of_equivalent houtcome
      have hl : a.lambdaHash o.maxDepth l = .ok hash := hl
      have hm : a.lambdaHash o.maxDepth m = .ok hash := hm
      simp [hl, hm, pure_eq]

/-- Two lambdas of different groups are in order if their fingerprints tell
them apart. They need not be compared. -/
theorem checkDistinct_eq_nil_iff :
    checkDistinct a o l m = .ok [] ↔ a.ToldApart o.maxDepth l m := by
  unfold checkDistinct
  simp only [bind_eq_ok_iff, pure_eq, Except.ok.injEq, List.append_eq_nil_iff, ite_eq_right_iff,
    imp_false, List.cons_ne_nil]
  constructor
  · rintro ⟨_, -, x, hx, y, hy, -, hne⟩
    exact ⟨x, y, hx, hy, hne⟩
  · intro h
    have ⟨x, y, hx, hy, hne⟩ := h
    obtain ⟨outcome, houtcome⟩ := Arena.compareLambdas_of_hash o.policy hx hy
    refine ⟨outcome, houtcome, x, hx, y, hy, ?_, hne⟩
    intro hequivalent
    cases outcome with
    | equivalent => exact h.not_equivalent houtcome
    | diverged d => cases hequivalent

/-- **What the contract on groups comes to**: lambdas of one equal group are
equivalent, and lambdas of different groups of a family are told apart. -/
theorem checkGroups_eq_nil_iff {equal notEqual : List (List LambdaId)} :
    checkGroups a o equal notEqual = .ok [] ↔
      (∀ group ∈ equal, group.Pairwise (a.Equivalent o.policy o.maxDepth)) ∧
      (equal.Pairwise fun group other => ∀ l ∈ group, ∀ m ∈ other, a.ToldApart o.maxDepth l m) ∧
      notEqual.Pairwise fun group other => ∀ l ∈ group, ∀ m ∈ other,
        a.ToldApart o.maxDepth l m := by
  have hwithin : checkPairs (checkEqual a o) (equal.flatMap orderedPairs) = .ok [] ↔
      ∀ group ∈ equal, group.Pairwise (a.Equivalent o.policy o.maxDepth) := by
    have hsymm (group : List LambdaId) :
        (group.Pairwise fun l m => a.Equivalent o.policy o.maxDepth l m ∧
          a.Equivalent o.policy o.maxDepth m l) ↔
            group.Pairwise (a.Equivalent o.policy o.maxDepth) :=
      List.Pairwise.iff fun l m => and_iff_left_of_imp Arena.Equivalent.symm
    simp only [checkPairs_eq_nil_iff, checkEqual_eq_nil_iff, List.mem_flatMap, ← hsymm,
      ← forall_orderedPairs_iff]
    exact ⟨fun h group hgroup l m hlm => h l m ⟨group, hgroup, hlm⟩,
      fun h l m ⟨group, hgroup, hlm⟩ => h group hgroup l m hlm⟩
  have hacross (family : List (List LambdaId)) :
      checkPairs (checkDistinct a o) (crossPairs family) = .ok [] ↔
        family.Pairwise fun group other => ∀ l ∈ group, ∀ m ∈ other,
          a.ToldApart o.maxDepth l m := by
    simp only [checkPairs_eq_nil_iff, checkDistinct_eq_nil_iff, forall_crossPairs_iff]
  rw [← hwithin, ← hacross, ← hacross, checkGroups_eq]
  simp only [bind_eq_ok_iff, pure_eq, Except.ok.injEq, List.append_eq_nil_iff]
  constructor
  · rintro ⟨_, h₁, _, h₂, _, h₃, ⟨rfl, rfl⟩, rfl⟩
    exact ⟨h₁, h₂, h₃⟩
  · rintro ⟨h₁, h₂, h₃⟩
    exact ⟨[], h₁, [], h₂, [], h₃, ⟨rfl, rfl⟩, rfl⟩

variable {groups : List (List LambdaId)} {group other : List LambdaId}

/-- Of groups that break no contract, what is equivalent to a member of one
is what else is in it. -/
theorem equivalent_iff_mem (hcheck : checkGroups a o groups [] = .ok [])
    (hgroup : group ∈ groups) (hother : other ∈ groups)
    (hhash : ∀ k ∈ group, ∃ hash, a.lambdaHash o.maxDepth k = .ok hash) (hl : l ∈ group)
    (hm : m ∈ other) : a.Equivalent o.policy o.maxDepth l m ↔ m ∈ group := by
  obtain ⟨hwithin, hacross, -⟩ := checkGroups_eq_nil_iff.1 hcheck
  constructor
  · intro hlm
    by_contra hnot
    have hne : group ≠ other := fun heq => hnot (heq ▸ hm)
    have : Std.Symm fun group other : List LambdaId =>
        ∀ l ∈ group, ∀ m ∈ other, a.ToldApart o.maxDepth l m :=
      ⟨fun _ _ h m hm l hl => (h l hl m hm).symm⟩
    exact (hacross.forall hgroup hother hne l hl m hm).not_equivalent hlm
  · intro hm
    have : Std.Symm (a.Equivalent o.policy o.maxDepth) := ⟨fun _ _ => Arena.Equivalent.symm⟩
    refine (hwithin group hgroup).forall_of_forall (fun k hk => ?_) hl hm
    obtain ⟨hash, hhash⟩ := hhash k hk
    obtain ⟨content, hread, -⟩ := Arena.lambdaHash_eq_ok_iff.1 hhash
    exact .refl hread

/-- Groups that break no contract have no members in common. -/
theorem nodup_flatten_of_checkGroups (hnodup : ∀ group ∈ groups, group.Nodup)
    (hcheck : checkGroups a o groups [] = .ok []) : groups.flatten.Nodup := by
  obtain ⟨-, hacross, -⟩ := checkGroups_eq_nil_iff.1 hcheck
  refine List.nodup_flatten.2 ⟨hnodup, hacross.imp fun hapart => ?_⟩
  intro l hl hm
  exact (hapart l hl l hm).irrefl

end Checks

/-! ## Submitting groups -/

/-- The first lambdas of groups are members. -/
theorem filterMap_head?_sublist (groups : List (List LambdaId)) :
    (groups.filterMap List.head?).Sublist groups.flatten := by
  induction groups with
  | nil => exact .slnil
  | cons group rest ih =>
    cases group with
    | nil => exact ih
    | cons first later => exact (ih.trans (List.sublist_append_right later _)).cons_cons first

/-- The lambdas that groups ask to be folded are members. -/
theorem map_fst_expectedDeduplication_sublist (groups : List (List LambdaId)) :
    ((expectedDeduplication groups).map Prod.fst).Sublist groups.flatten := by
  induction groups with
  | nil => exact .slnil
  | cons group rest ih =>
    cases group with
    | nil => exact ih
    | cons first later =>
      have hlater : (later.map (·, first)).map Prod.fst = later := by
        rw [List.map_map]
        exact List.map_id later
      show (((later.map (·, first)) ++ expectedDeduplication rest).map Prod.fst).Sublist _
      rw [List.map_append, hlater]
      exact ((List.Sublist.refl later).append ih).cons first

/-- Lambdas that are submitted by groups: the members of the groups and no
others, each group beginning with its first lambda. The groups may be
interleaved, and lambdas may be repeated. -/
structure OrderOfSubmission (groups : List (List LambdaId)) (ls : List LambdaId) : Prop where
  mem_iff : ∀ {l}, l ∈ ls ↔ ∃ group ∈ groups, l ∈ group
  first_lt : ∀ {first later}, first :: later ∈ groups → ∀ l ∈ later, ls.idxOf first < ls.idxOf l

/-- The first lambda that is submitted of a group is the first of the group. -/
theorem OrderOfSubmission.find?_eq {groups : List (List LambdaId)} {ls later : List LambdaId}
    {first : LambdaId} (h : OrderOfSubmission groups ls) (hgroup : first :: later ∈ groups)
    {p : LambdaId → Bool} (hp : ∀ l ∈ ls, p l = true ↔ l ∈ first :: later) :
    ls.find? p = some first := by
  have hfirst : first ∈ ls := h.mem_iff.2 ⟨_, hgroup, List.mem_cons_self⟩
  refine List.find?_eq_some_iff_getElem.2 ⟨(hp first hfirst).2 List.mem_cons_self, ?_⟩
  have hplace := List.idxOf_lt_length_of_mem hfirst
  refine ⟨ls.idxOf first, hplace, List.getElem_idxOf hplace, fun i hi => ?_⟩
  -- a member that came before the first would be where it is not
  rw [Bool.not_eq_true', Bool.eq_false_iff, ne_eq, hp _ (List.getElem_mem _)]
  intro hmem
  have hle : ls.idxOf first ≤ ls.idxOf ls[i] := by
    rcases List.mem_cons.1 hmem with heq | hlater
    · exact Nat.le_of_eq (congrArg ls.idxOf heq).symm
    · exact Nat.le_of_lt (h.first_lt hgroup _ hlater)
  have hother := List.not_of_lt_findIdx (Nat.lt_of_lt_of_le hi hle)
  rw [beq_self_eq_true] at hother
  cases hother

namespace Registry

variable {a : Arena} {r : Registry a} {o : Options} {groups : List (List LambdaId)}
  {ls : List LambdaId} {l m : LambdaId}

/-- If nothing is refused, everything is answered. -/
theorem map_fst_references (h : (r.submitAll ls).1 = []) : (r.references ls).map Prod.fst = ls := by
  induction ls generalizing r with
  | nil => rfl
  | cons l ls ih =>
    rw [submitAll] at h
    rw [references]
    rcases hsubmit : r.submit l with ⟨refusal | x, r'⟩
    · rw [hsubmit] at h
      cases h
    · rw [hsubmit] at h
      exact congrArg (l :: ·) (ih h)

/-- **A registry is sorted by groups** if it knows the members of the groups
and no other lambdas, and the first of a group represents all its members. -/
def SortedBy (r : Registry a) (groups : List (List LambdaId)) : Prop :=
  ∀ l m, (∃ x, r.canonical? l = some x ∧ x.canonical = m) ↔
    ∃ later, m :: later ∈ groups ∧ l ∈ m :: later

/-- If nothing is refused, every member of a group has a fingerprint. -/
theorem lambdaHash_of_order (horder : OrderOfSubmission groups ls)
    (haccepted : ((new a o).submitAll ls).1 = []) {group : List LambdaId}
    (hgroup : group ∈ groups) (hl : l ∈ group) :
    ∃ hash, a.lambdaHash o.maxDepth l = .ok hash := by
  rw [Reachable.new.submitAll_fst Phase.noConfusion, List.map_eq_nil_iff,
    List.filterMap_eq_nil_iff] at haccepted
  exact Arena.fault?_eq_none_iff.1 (haccepted l (horder.mem_iff.2 ⟨group, hgroup, hl⟩))

/-- A member of a group is referred to the first of the group, as this is the
first submitted lambda that it is equivalent to. -/
theorem canonical_of_mem_references (hshared : o.deduplicate = true)
    (hcheck : checkGroups a o groups [] = .ok []) (horder : OrderOfSubmission groups ls)
    (haccepted : ((new a o).submitAll ls).1 = []) {first : LambdaId} {later : List LambdaId}
    (hgroup : first :: later ∈ groups) (hl : l ∈ first :: later) {x : Reference}
    (hx : (l, x) ∈ (new a o).references ls) : x.canonical = first := by
  obtain ⟨hcoherent, hoptions, hrecorded⟩ :=
    submitAll_recorded (Coherent.new a o) (Recorded.new a o) ls
  rw [List.nil_append] at hrecorded
  let p (m : LambdaId) : Bool := a.compareLambdas o.policy o.maxDepth l m = .ok .equivalent
  have halike : ∀ m, p m = true ↔ ((new a o).submitAll ls).2.options.Alike a l m := by
    intro m
    rw [decide_eq_true_iff, hoptions]
    exact (Options.alike_of_deduplicate hshared).symm
  have hmember : ∀ m ∈ ls, p m = true ↔ m ∈ first :: later := by
    intro m hm
    obtain ⟨other, hother, hm⟩ := horder.mem_iff.1 hm
    rw [decide_eq_true_iff]
    exact equivalent_iff_mem hcheck hgroup hother
      (fun k hk => lambdaHash_of_order horder haccepted hgroup hk) hl hm
  have hfind := hrecorded.find?_eq hcoherent hx halike
  rw [map_fst_references haccepted, horder.find?_eq hgroup hmember] at hfind
  exact (Option.some.inj hfind).symm

/-- **Groups that break no contract are sorted out by a registry**, if all
their members are accepted. -/
theorem sortedBy_submitAll (hshared : o.deduplicate = true)
    (hcheck : checkGroups a o groups [] = .ok []) (horder : OrderOfSubmission groups ls)
    (haccepted : ((new a o).submitAll ls).1 = []) : ((new a o).submitAll ls).2.SortedBy groups := by
  obtain ⟨-, -, hrecorded⟩ := submitAll_recorded (Coherent.new a o) (Recorded.new a o) ls
  rw [List.nil_append] at hrecorded
  have hall := map_fst_references haccepted
  intro l m
  constructor
  · rintro ⟨x, hx, rfl⟩
    rw [← hrecorded.mem_iff] at hx
    have hl : l ∈ ls := hall ▸ List.mem_map_of_mem hx
    obtain ⟨_ | ⟨first, later⟩, hgroup, hl⟩ := horder.mem_iff.1 hl
    · cases hl
    · obtain rfl := canonical_of_mem_references hshared hcheck horder haccepted hgroup hl hx
      exact ⟨later, hgroup, hl⟩
  · rintro ⟨later, hgroup, hl⟩
    have hmem : l ∈ ((new a o).references ls).map Prod.fst :=
      hall.symm ▸ horder.mem_iff.2 ⟨_, hgroup, hl⟩
    obtain ⟨⟨l, x⟩, hx, rfl⟩ := List.mem_map.1 hmem
    exact ⟨x, hrecorded.mem_iff.1 hx,
      canonical_of_mem_references hshared hcheck horder haccepted hgroup hl hx⟩

/-! ## The plan of a registry that is sorted by groups -/

namespace SortedBy

variable {g : Ledger}

/-- **A registry that is sorted by groups folds what the groups ask for**, and
nothing else. -/
theorem mem_deduplicated_iff (h : r.SortedBy groups) (hg : r.Keeps g)
    (hnodup : ∀ group ∈ groups, group.Nodup) :
    (l, m) ∈ r.draft.deduplicated ↔ (l, m) ∈ expectedDeduplication groups := by
  rw [hg.mem_deduplicated_iff, mem_expectedDeduplication_iff]
  constructor
  · rintro ⟨x, hx, hcanonical, hother⟩
    obtain ⟨later, hgroup, hl⟩ := (h l m).1 ⟨x, hx, hcanonical⟩
    exact ⟨later, hgroup, (List.mem_cons.1 hl).resolve_left hother.symm⟩
  · rintro ⟨later, hgroup, hl⟩
    obtain ⟨x, hx, hcanonical⟩ := (h l m).2 ⟨later, hgroup, List.mem_cons_of_mem m hl⟩
    have hnotMem := (List.nodup_cons.1 (hnodup _ hgroup)).1
    exact ⟨x, hx, hcanonical, fun heq => hnotMem (heq ▸ hl)⟩

/-- The plan meets the contract. -/
theorem check_eq_nil (h : r.SortedBy groups) (hg : r.Keeps g)
    (hnodup : ∀ group ∈ groups, group.Nodup) : r.draft.check groups = [] := by
  rw [hg.check_eq_nil_iff]
  intro l m hlm
  rw [Plan.folded?_eq_some_iff_mem hg.nodup_deduplicated]
  exact (h.mem_deduplicated_iff hg hnodup).2 hlm

/-- The lambdas that are folded are those that the groups ask for. -/
theorem deduplicated_perm (h : r.SortedBy groups) (hg : r.Keeps g)
    (hnodup : groups.flatten.Nodup) :
    r.draft.deduplicated.Perm (expectedDeduplication groups) := by
  have hactual : r.draft.deduplicated.Nodup := hg.nodup_deduplicated.of_map
  have hexpected : (expectedDeduplication groups).Nodup :=
    (hnodup.sublist (map_fst_expectedDeduplication_sublist groups)).of_map
  refine (List.perm_ext_iff_of_nodup hactual hexpected).2 fun ⟨l, m⟩ => ?_
  exact h.mem_deduplicated_iff hg (List.nodup_flatten.1 hnodup).1

/-- **The first lambdas of the classes are the first lambdas of the
groups.** -/
theorem canonicals_perm (h : r.SortedBy groups) (hg : r.Keeps g) (hr : r.Coherent)
    (hnodup : groups.flatten.Nodup) :
    (r.draft.classes.toList.map (·.canonical)).Perm (groups.filterMap List.head?) := by
  have hheads : (groups.filterMap List.head?).Nodup :=
    hnodup.sublist (filterMap_head?_sublist groups)
  refine (List.perm_ext_iff_of_nodup hr.nodup_canonical hheads).2 fun m => ?_
  rw [hg.mem_canonicals_iff, h m m, List.mem_filterMap]
  constructor
  · rintro ⟨later, hgroup, -⟩
    exact ⟨_, hgroup, rfl⟩
  · rintro ⟨_ | ⟨first, later⟩, hgroup, hhead⟩
    · cases hhead
    · obtain rfl := Option.some.inj hhead
      exact ⟨later, hgroup, List.mem_cons_self⟩

end SortedBy

/-- **Groups that break no contract have a plan that breaks none.** If
classes are shared, no group repeats a lambda, the groups are in order, and
their members are submitted to a new registry and accepted, the first of each
group before its others, then the plan that is handed out meets the contract
on plans. It folds the lambdas that the groups ask for and no others, and has
one class for every group that is not empty, started by the first lambda of
the group. -/
theorem check_of_checkGroups (a : Arena) (o : Options) (groups : List (List LambdaId))
    (ls : List LambdaId) (hshared : o.deduplicate = true)
    (hnodup : ∀ group ∈ groups, group.Nodup) (hcheck : checkGroups a o groups [] = .ok [])
    (horder : OrderOfSubmission groups ls) (haccepted : ((new a o).submitAll ls).1 = []) :
    ∃ p, ((new a o).submitAll ls).2.finalize.1 = .ok p ∧ p.check groups = [] ∧
      p.deduplicated.Perm (expectedDeduplication groups) ∧
      (p.classes.toList.map (·.canonical)).Perm (groups.filterMap List.head?) ∧
      p.classes.size = groups.countP (!·.isEmpty) := by
  have hsorted := sortedBy_submitAll hshared hcheck horder haccepted
  have hflat := nodup_flatten_of_checkGroups hnodup hcheck
  have hreachable : Reachable o ((new a o).submitAll ls).2 := by
    rw [submitAll_snd]
    exact Reachable.new.run _
  obtain ⟨g, hg⟩ := hreachable.keeps
  have hclasses := hsorted.canonicals_perm hg hreachable.coherent hflat
  refine ⟨_, finalize_submitAll a o ls, hsorted.check_eq_nil hg hnodup,
    hsorted.deduplicated_perm hg hflat, hclasses, ?_⟩
  have hlength := hclasses.length_eq
  rw [List.length_map, Array.length_toList, List.length_filterMap_eq_countP] at hlength
  rw [hlength]
  refine List.countP_congr fun group _ => ?_
  cases group <;> simp

/-- Of the five lambdas, the first two are a group and the third is one, and
so they are sorted, though the third is submitted first. -/
theorem check_of_checkGroups_of_fiveLambdas :
    ∃ p, ((new Arena.fiveLambdas ⟨true, .positional, 2, {}⟩).submitAll
        [⟨2⟩, ⟨0⟩, ⟨1⟩]).2.finalize.1 = .ok p ∧ p.check [[⟨0⟩, ⟨1⟩], [], [⟨2⟩]] = [] ∧
      p.deduplicated.Perm [(⟨1⟩, ⟨0⟩)] ∧ (p.classes.toList.map (·.canonical)).Perm [⟨0⟩, ⟨2⟩] ∧
      p.classes.size = 2 := by
  refine check_of_checkGroups Arena.fiveLambdas ⟨true, .positional, 2, {}⟩
    [[⟨0⟩, ⟨1⟩], [], [⟨2⟩]] [⟨2⟩, ⟨0⟩, ⟨1⟩] rfl (by decide) (by decide +kernel) ⟨?_, ?_⟩
    (by decide +kernel)
  · intro l
    simp [or_comm, or_assoc, or_left_comm]
  · intro first later hgroup
    simp only [List.mem_cons, List.cons.injEq, reduceCtorEq, List.not_mem_nil, or_false,
      false_or] at hgroup
    rcases hgroup with ⟨rfl, rfl⟩ | ⟨rfl, rfl⟩ <;> decide

end Registry

end LambdaSharing
