import LambdaSharing.Proofs.Comparison.Fingerprints
import LambdaSharing.Proofs.Sharing.Checking

/-!
# The violations that are listed

Whoever marks groups of lambdas reads off the list of violations which marks
are wrong, and takes an empty list to mean that none is. So the list has to be
complete, and nothing may be in it that is not a violation; and as it says of
two lambdas what a comparison said of them, in the order of the marks, it is
determined to the last entry (`checkGroups_eq_violations`), if all lambdas can
be read.

Of the four kinds of violations, one is never met. Lambdas of an equal group
whose fingerprints differ although they are equivalent would be a defect of
the walks, and not of the marks; but there are none, as equivalent lambdas
have one fingerprint. For the same reason lambdas of different groups that are
equivalent are always listed twice, the second time for their fingerprints.
-/

namespace LambdaSharing

section Violations

variable (a : Arena) (o : Options)

/-- The divergence of two lambdas, if they can be compared and have one. -/
def Arena.divergence? (l r : LambdaId) : Option Divergence :=
  match a.compareLambdas o.policy o.maxDepth l r with
  | .ok (.diverged d) => some d
  | _ => none

/-- **The violations within a group**: for each lambda and each other one, that
they diverge, if they do. -/
def violationsWithin (group : List LambdaId) : List GroupViolation :=
  (orderedPairs group).filterMap fun (l, r) => (a.divergence? o l r).map (.expectedEqual l r)

/-- The violations of two lambdas of different groups: that they are
equivalent, and that they have one fingerprint. -/
def violationsOf (l r : LambdaId) : List GroupViolation :=
  (if a.compareLambdas o.policy o.maxDepth l r = .ok .equivalent then [.expectedDistinct l r]
    else []) ++
  if a.lambdaHash o.maxDepth l = a.lambdaHash o.maxDepth r then [.hashCollision l r] else []

/-- **The violations across a family of groups**: for each group and each one
behind it, those of each lambda of the first with each of the second. -/
def violationsAcross (groups : List (List LambdaId)) : List GroupViolation :=
  (crossPairs groups).flatMap fun (l, r) => violationsOf a o l r

end Violations

variable {a : Arena} {o : Options} {l r : LambdaId} {x y : UInt64}

/-! ## Lambdas that can be read -/

/-- Pairs are checked without a fault if each of them is. -/
theorem checkPairs_eq_ok {check : LambdaId → LambdaId → Except Fault (List GroupViolation)}
    {violations : LambdaId × LambdaId → List GroupViolation} {pairs : List (LambdaId × LambdaId)}
    (h : ∀ pair ∈ pairs, check pair.1 pair.2 = .ok (violations pair)) :
    checkPairs check pairs = .ok (pairs.flatMap violations) := by
  induction pairs with
  | nil => rfl
  | cons pair rest ih =>
    obtain ⟨hpair, hrest⟩ := List.forall_mem_cons.1 h
    rw [checkPairs, hpair, ih hrest]
    rfl

/-- Two lambdas of one equal group are at fault only if they diverge. -/
theorem checkEqual_eq_ok (hl : a.lambdaHash o.maxDepth l = .ok x)
    (hr : a.lambdaHash o.maxDepth r = .ok y) :
    checkEqual a o l r = .ok ((a.divergence? o l r).map (.expectedEqual l r)).toList := by
  obtain ⟨outcome, houtcome⟩ := Arena.compareLambdas_of_hash o.policy hl hr
  unfold checkEqual Arena.divergence?
  rw [houtcome]
  cases outcome with
  | diverged d => rfl
  | equivalent =>
    -- the fingerprints are the same
    have hsame : x = y := by
      rw [Arena.Equivalent.lambdaHash_eq houtcome, hr] at hl
      exact (Except.ok.inj hl).symm
    rw [ok_bind, hl, hr]
    exact congrArg Except.ok (if_neg (not_not_intro hsame))

/-- Two lambdas of different groups are at fault as they are said to be. -/
theorem checkDistinct_eq_ok (hl : a.lambdaHash o.maxDepth l = .ok x)
    (hr : a.lambdaHash o.maxDepth r = .ok y) :
    checkDistinct a o l r = .ok (violationsOf a o l r) := by
  obtain ⟨outcome, houtcome⟩ := Arena.compareLambdas_of_hash o.policy hl hr
  unfold checkDistinct violationsOf
  rw [houtcome, hl, hr]
  cases outcome <;> simp [pure_eq, Outcome.isEquivalent]

section Readable

variable {groups : List (List LambdaId)}
  (h : ∀ group ∈ groups, ∀ l ∈ group, ∃ hash, a.lambdaHash o.maxDepth l = .ok hash)
include h

/-- Equal groups of lambdas that can be read are checked to the end. -/
theorem checkPairs_orderedPairs :
    checkPairs (checkEqual a o) (groups.flatMap orderedPairs) =
      .ok (groups.flatMap (violationsWithin a o)) := by
  have hwithin : violationsWithin a o = fun group => (orderedPairs group).flatMap fun pair =>
      ((a.divergence? o pair.1 pair.2).map (.expectedEqual pair.1 pair.2)).toList :=
    funext fun group => List.filterMap_eq_flatMap_toList _ _
  rw [hwithin, ← List.flatMap_assoc]
  refine checkPairs_eq_ok fun ⟨l, r⟩ hpair => ?_
  obtain ⟨group, hgroup, hpair⟩ := List.mem_flatMap.1 hpair
  obtain ⟨i, j, -, hl, hr⟩ := mem_orderedPairs_iff.1 hpair
  obtain ⟨x, hl⟩ := h group hgroup l (List.mem_of_getElem? hl)
  obtain ⟨y, hr⟩ := h group hgroup r (List.mem_of_getElem? hr)
  exact checkEqual_eq_ok hl hr

/-- So are families of groups that are to be told apart. -/
theorem checkPairs_crossPairs :
    checkPairs (checkDistinct a o) (crossPairs groups) = .ok (violationsAcross a o groups) := by
  refine checkPairs_eq_ok fun ⟨l, r⟩ hpair => ?_
  -- what every two members of different groups have, every pair checked has
  have hmembers := (forall_crossPairs_iff (P := fun l r =>
    (∃ x, a.lambdaHash o.maxDepth l = .ok x) ∧ ∃ y, a.lambdaHash o.maxDepth r = .ok y)).2
      (List.pairwise_of_forall_mem_list fun group hgroup other hother l hl r hr =>
        ⟨h group hgroup l hl, h other hother r hr⟩)
  obtain ⟨⟨x, hl⟩, y, hr⟩ := hmembers l r hpair
  exact checkDistinct_eq_ok hl hr

end Readable

/-! ## What is in the list -/

/-- **Equivalent lambdas of different groups are listed twice**, the second
time for their fingerprints. -/
def Accompanied (violations : List GroupViolation) : Prop :=
  ∀ (i : Nat) (l r : LambdaId), violations[i]? = some (.expectedDistinct l r) →
    violations[i + 1]? = some (.hashCollision l r)

theorem Accompanied.append {vs ws : List GroupViolation} (h : Accompanied vs)
    (h' : Accompanied ws) : Accompanied (vs ++ ws) := by
  intro i l r hi
  rcases Nat.lt_or_ge i vs.length with hlt | hge
  · rw [List.getElem?_append_left hlt] at hi
    have hnext := h i l r hi
    rwa [List.getElem?_append_left (List.getElem?_eq_some_iff.1 hnext).1]
  · rw [List.getElem?_append_right hge] at hi
    have hnext := h' _ l r hi
    rwa [List.getElem?_append_right (Nat.le_succ_of_le hge), Nat.succ_sub hge]

theorem Accompanied.flatMap {α : Type} {f : α → List GroupViolation} {xs : List α}
    (h : ∀ x ∈ xs, Accompanied (f x)) : Accompanied (xs.flatMap f) := by
  induction xs with
  | nil => exact fun i l r hi => by cases hi
  | cons x xs ih =>
    obtain ⟨hx, hxs⟩ := List.forall_mem_cons.1 h
    rw [List.flatMap_cons]
    exact hx.append (ih hxs)

/-- What is listed within a group is that lambdas diverge. -/
theorem mem_violationsWithin {group : List LambdaId} {v : GroupViolation}
    (h : v ∈ violationsWithin a o group) : ∃ l r d, v = .expectedEqual l r d := by
  obtain ⟨⟨l, r⟩, -, hv⟩ := List.mem_filterMap.1 h
  obtain ⟨d, -, rfl⟩ := Option.map_eq_some_iff.1 hv
  exact ⟨l, r, d, rfl⟩

theorem accompanied_violationsWithin (group : List LambdaId) :
    Accompanied (violationsWithin a o group) := by
  intro i l r hi
  obtain ⟨_, _, _, heq⟩ := mem_violationsWithin (List.mem_of_getElem? hi)
  cases heq

theorem accompanied_violationsOf (l r : LambdaId) : Accompanied (violationsOf a o l r) := by
  unfold violationsOf
  by_cases hequivalent : a.compareLambdas o.policy o.maxDepth l r = .ok .equivalent
  · rw [if_pos hequivalent, if_pos (Arena.Equivalent.lambdaHash_eq hequivalent)]
    rintro (_ | _ | i) l' r' hi
    · obtain ⟨rfl, rfl⟩ := GroupViolation.expectedDistinct.inj (Option.some.inj hi)
      rfl
    · cases Option.some.inj hi
    · cases hi
  · rw [if_neg hequivalent, List.nil_append]
    intro i l' r' hi
    have hmem := List.mem_of_getElem? hi
    split at hmem
    · cases List.mem_singleton.1 hmem
    · cases hmem

/-- What is listed across groups is that lambdas are not told apart. -/
theorem hashDisagreement_notMem_violationsAcross {groups : List (List LambdaId)} :
    .hashDisagreement l r ∉ violationsAcross a o groups := by
  intro hmem
  obtain ⟨⟨l', r'⟩, -, hmem⟩ := List.mem_flatMap.1 hmem
  simp [violationsOf] at hmem

/-- **The violations of groups, to the last entry.** If all lambdas of two
families of groups have a fingerprint, then the check of the groups comes to
an end, and lists for each equal group and each two of its places, in both
orders, that the lambdas diverge, if they do; then, for the equal groups and
after them for the others, for each group and each one behind it, and for
each lambda of the first and each of the second, that they are equivalent and
that they have one fingerprint, if it is so. It never lists that fingerprints
of equivalent lambdas disagree; and whenever it lists that lambdas are
equivalent, the next entry is that the two have one fingerprint. -/
theorem checkGroups_eq_violations (a : Arena) (o : Options) (equal notEqual : List (List LambdaId))
    (h : ∀ group ∈ equal ++ notEqual, ∀ l ∈ group, ∃ hash, a.lambdaHash o.maxDepth l = .ok hash) :
    ∃ violations, checkGroups a o equal notEqual = .ok violations ∧
      violations = equal.flatMap (violationsWithin a o) ++ violationsAcross a o equal ++
        violationsAcross a o notEqual ∧
      (∀ l r, .hashDisagreement l r ∉ violations) ∧
      ∀ (i : Nat) (l r : LambdaId), violations[i]? = some (.expectedDistinct l r) →
        violations[i + 1]? = some (.hashCollision l r) := by
  have hequal : ∀ group ∈ equal, ∀ l ∈ group, ∃ hash, a.lambdaHash o.maxDepth l = .ok hash :=
    fun group hgroup => h group (List.mem_append_left _ hgroup)
  have hothers : ∀ group ∈ notEqual, ∀ l ∈ group, ∃ hash, a.lambdaHash o.maxDepth l = .ok hash :=
    fun group hgroup => h group (List.mem_append_right _ hgroup)
  refine ⟨_, ?_, rfl, ?_, ?_⟩
  · rw [checkGroups_eq, checkPairs_orderedPairs hequal, checkPairs_crossPairs hequal,
      checkPairs_crossPairs hothers]
    rfl
  · intro l r hmem
    rcases List.mem_append.1 hmem with hmem | hmem
    · rcases List.mem_append.1 hmem with hmem | hmem
      · obtain ⟨group, -, hmem⟩ := List.mem_flatMap.1 hmem
        obtain ⟨_, _, _, heq⟩ := mem_violationsWithin hmem
        cases heq
      · exact hashDisagreement_notMem_violationsAcross hmem
    · exact hashDisagreement_notMem_violationsAcross hmem
  · have hacross (groups : List (List LambdaId)) : Accompanied (violationsAcross a o groups) :=
      .flatMap fun pair _ => accompanied_violationsOf pair.1 pair.2
    have hwithin : Accompanied (equal.flatMap (violationsWithin a o)) :=
      .flatMap fun group _ => accompanied_violationsWithin group
    exact (hwithin.append (hacross equal)).append (hacross notEqual)

/-- The first two of the five lambdas are not to be told apart, and the third
is not like the first. -/
theorem checkGroups_of_fiveLambdas :
    let o : Options := ⟨true, .positional, 2, {}⟩
    (∀ group ∈ [[⟨0⟩, ⟨2⟩]] ++ [[⟨0⟩], [], [⟨1⟩]], ∀ l ∈ group,
      ∃ hash, Arena.fiveLambdas.lambdaHash o.maxDepth l = .ok hash) ∧
    ∃ violations, checkGroups Arena.fiveLambdas o [[⟨0⟩, ⟨2⟩]] [[⟨0⟩], [], [⟨1⟩]] = .ok violations ∧
      violations.map (fun v => (v.kindName, v.pair)) =
        [("ExpectedEqual", ⟨0⟩, ⟨2⟩), ("ExpectedEqual", ⟨2⟩, ⟨0⟩), ("ExpectedDistinct", ⟨0⟩, ⟨1⟩),
          ("HashCollision", ⟨0⟩, ⟨1⟩)] ∧
      violations[3]? = some (.hashCollision ⟨0⟩ ⟨1⟩) := by
  intro o
  have h₀ := @Arena.lambdaHash_of_words Arena.fiveLambdas 2 ⟨0⟩ _ rfl
  have h₁ := @Arena.lambdaHash_of_words Arena.fiveLambdas 2 ⟨1⟩ _ rfl
  have h₂ := @Arena.lambdaHash_of_words Arena.fiveLambdas 2 ⟨2⟩ _ rfl
  have hreadable : ∀ group ∈ [[⟨0⟩, ⟨2⟩]] ++ [[⟨0⟩], [], [⟨1⟩]], ∀ l ∈ group,
      ∃ hash, Arena.fiveLambdas.lambdaHash o.maxDepth l = .ok hash := by
    simp only [List.mem_append, List.mem_cons, List.not_mem_nil, or_false]
    rintro group (rfl | rfl | rfl | rfl) l hl
    · rcases List.mem_pair.1 hl with rfl | rfl
      · exact ⟨_, h₀⟩
      · exact ⟨_, h₂⟩
    · exact List.mem_singleton.1 hl ▸ ⟨_, h₀⟩
    · cases hl
    · exact List.mem_singleton.1 hl ▸ ⟨_, h₁⟩
  obtain ⟨violations, hviolations, heq, -, hnext⟩ :=
    checkGroups_eq_violations Arena.fiveLambdas o [[⟨0⟩, ⟨2⟩]] [[⟨0⟩], [], [⟨1⟩]] hreadable
  refine ⟨hreadable, violations, hviolations, ?_, hnext 2 ⟨0⟩ ⟨1⟩ ?_⟩
  · rw [heq]
    decide +kernel
  · rw [heq]
    decide +kernel

end LambdaSharing
