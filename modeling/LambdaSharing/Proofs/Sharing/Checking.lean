import LambdaSharing.Proofs.Walk.Reuse
import LambdaSharing.Proofs.Walk.Sequence
import LambdaSharing.Sharing.Contract
import Mathlib.Data.List.Pairwise

/-!
# Checking groups pair by pair

What the contracts on groups say, they say of two lambdas at a time. A
checker goes through the pairs in four nested loops, and has a memory: it
keeps a comparer and a hasher for all pairs, a table of the fingerprints that
were needed before, and a list of violations to which it adds in the middle
of the loops. What it says of a pair could depend on the pairs before.

It does not (`checkGroups_eq`). The walkers are after each call what they
were before it, and the table holds nothing but fingerprints
(`GroupChecker.Serves`). So the check of a pair adds to the list of
violations what the pair would come to if it were the only one, or stops with
the fault that it would stop with, and a loop does so for the pairs it goes
through, one after the other (`GroupChecker.Reports`). What remains is
`checkPairs`, on lists of pairs that are written down in advance.
-/

namespace LambdaSharing

/-! ## Pairs -/

/-- All pairs of members at different places of a group, in both orders. -/
def orderedPairs (group : List LambdaId) : List (LambdaId × LambdaId) :=
  group.zipIdx.flatMap fun (l, i) =>
    (group.zipIdx.filter fun (_, j) => i ≠ j).map fun (r, _) => (l, r)

/-- All pairs of members of an earlier and a later group. -/
def crossPairs : List (List LambdaId) → List (LambdaId × LambdaId)
  | [] => []
  | group :: rest =>
    (rest.flatMap fun other => group.flatMap fun l => other.map fun r => (l, r))
      ++ crossPairs rest

section Pairs

variable {P : LambdaId → LambdaId → Prop} {group : List LambdaId} {groups : List (List LambdaId)}
  {l m : LambdaId}

theorem mem_orderedPairs_iff :
    (l, m) ∈ orderedPairs group ↔
      ∃ i j : Nat, i ≠ j ∧ group[i]? = some l ∧ group[j]? = some m := by
  unfold orderedPairs
  simp only [List.mem_flatMap, List.mem_map, List.mem_filter, Prod.exists, Prod.mk.injEq,
    List.mem_zipIdx_iff_getElem?, decide_eq_true_eq]
  constructor
  · rintro ⟨_, i, hi, _, j, ⟨hj, hij⟩, rfl, rfl⟩
    exact ⟨i, j, hij, hi, hj⟩
  · rintro ⟨i, j, hij, hi, hj⟩
    exact ⟨l, i, hi, m, j, ⟨hj, hij⟩, rfl, rfl⟩

/-- All pairs of a group satisfy what any two of its members satisfy in both
orders. -/
theorem forall_orderedPairs_iff :
    (∀ l m, (l, m) ∈ orderedPairs group → P l m) ↔ group.Pairwise fun l m => P l m ∧ P m l := by
  simp only [mem_orderedPairs_iff]
  rw [List.pairwise_iff_getElem]
  constructor
  · intro h i j hi hj hij
    have hi := List.getElem?_eq_getElem hi
    have hj := List.getElem?_eq_getElem hj
    exact ⟨h _ _ ⟨i, j, Nat.ne_of_lt hij, hi, hj⟩, h _ _ ⟨j, i, Nat.ne_of_gt hij, hj, hi⟩⟩
  · rintro h l m ⟨i, j, hij, hl, hm⟩
    obtain ⟨hi, rfl⟩ := List.getElem?_eq_some_iff.1 hl
    obtain ⟨hj, rfl⟩ := List.getElem?_eq_some_iff.1 hm
    rcases Nat.lt_or_gt_of_ne hij with hlt | hgt
    · exact (h i j hi hj hlt).1
    · exact (h j i hj hi hgt).2

/-- All pairs of different groups satisfy what members of an earlier and a
later group satisfy. -/
theorem forall_crossPairs_iff :
    (∀ l m, (l, m) ∈ crossPairs groups → P l m) ↔
      groups.Pairwise fun group other => ∀ l ∈ group, ∀ m ∈ other, P l m := by
  induction groups with
  | nil => simp [crossPairs]
  | cons group rest ih =>
    rw [List.pairwise_cons, ← ih, crossPairs]
    simp only [List.mem_append, List.mem_flatMap, List.mem_map, Prod.mk.injEq]
    constructor
    · intro h
      refine ⟨fun other hother l hl m hm => ?_, fun l m hlm => h l m (.inr hlm)⟩
      exact h l m (.inl ⟨other, hother, l, hl, m, hm, rfl, rfl⟩)
    · rintro ⟨hgroup, hrest⟩ l m (⟨other, hother, _, hl, _, hm, rfl, rfl⟩ | hlm)
      · exact hgroup other hother _ hl _ hm
      · exact hrest l m hlm

end Pairs

/-! ## What a pair comes to -/

/-- The violations of two lambdas of one equal group. -/
def checkEqual (a : Arena) (o : Options) (l r : LambdaId) :
    Except Fault (List GroupViolation) := do
  match ← a.compareLambdas o.policy o.maxDepth l r with
  | .diverged d => return [.expectedEqual l r d]
  | .equivalent =>
    let hl ← a.lambdaHash o.maxDepth l
    let hr ← a.lambdaHash o.maxDepth r
    return if hl ≠ hr then [.hashDisagreement l r] else []

/-- The violations of two lambdas of different groups. -/
def checkDistinct (a : Arena) (o : Options) (l r : LambdaId) :
    Except Fault (List GroupViolation) := do
  let outcome ← a.compareLambdas o.policy o.maxDepth l r
  let hl ← a.lambdaHash o.maxDepth l
  let hr ← a.lambdaHash o.maxDepth r
  return (if outcome.isEquivalent then [.expectedDistinct l r] else [])
    ++ (if hl = hr then [.hashCollision l r] else [])

/-- The violations of pairs, one pair after the other, up to the first
fault. -/
def checkPairs (check : LambdaId → LambdaId → Except Fault (List GroupViolation)) :
    List (LambdaId × LambdaId) → Except Fault (List GroupViolation)
  | [] => .ok []
  | (l, r) :: rest => do
    let violations ← check l r
    return violations ++ (← checkPairs check rest)

/-- To go through some entries of a list is to go through all of them and pass
over the others. -/
theorem map_filter_eq_flatMap {α β : Type} (p : α → Bool) (f : α → β) (xs : List α) :
    (xs.filter p).map f = xs.flatMap fun x => if p x then [f x] else [] := by
  induction xs with
  | nil => rfl
  | cons x xs ih =>
    rw [List.flatMap_cons, ← ih]
    by_cases h : p x = true
    · rw [List.filter_cons_of_pos h, if_pos h]
      rfl
    · rw [List.filter_cons_of_neg h, if_neg h]
      rfl

/-- Pairs can be checked in two parts. -/
theorem checkPairs_append {check : LambdaId → LambdaId → Except Fault (List GroupViolation)}
    (earlier later : List (LambdaId × LambdaId)) :
    checkPairs check (earlier ++ later) = do
      let violations ← checkPairs check earlier
      return violations ++ (← checkPairs check later) := by
  induction earlier with
  | nil =>
    show checkPairs check later = (checkPairs check later).map ([] ++ ·)
    cases checkPairs check later <;> rfl
  | cons pair rest ih =>
    obtain ⟨l, r⟩ := pair
    rw [List.cons_append, checkPairs, checkPairs, ih]
    cases check l r with
    | error fault => rfl
    | ok violations =>
      cases checkPairs check rest with
      | error fault => rfl
      | ok more =>
        cases checkPairs check later with
        | error fault => rfl
        | ok last => exact congrArg Except.ok (List.append_assoc violations more last).symm

namespace GroupChecker

variable {a : Arena} {o : Options} {c : GroupChecker} {l r : LambdaId}
  {check : LambdaId → LambdaId → Except Fault (List GroupViolation)}

/-! ## What a checker remembers -/

/-- A checker that has needed more fingerprints and met more violations. -/
def after (c : GroupChecker) (hashes : Std.ExtTreeMap LambdaId UInt64)
    (violations : List GroupViolation) : GroupChecker :=
  { c with hashes, violations := c.violations ++ violations.toArray }

theorem after_nil : c.after c.hashes [] = c := by
  rw [after, Array.append_empty]

theorem after_after {hashes hashes' : Std.ExtTreeMap LambdaId UInt64}
    {vs ws : List GroupViolation} :
    (c.after hashes vs).after hashes' ws = c.after hashes' (vs ++ ws) := by
  have hlist : c.violations ++ vs.toArray ++ ws.toArray = c.violations ++ (vs ++ ws).toArray :=
    Array.append_assoc.trans (congrArg (c.violations ++ ·) (List.append_toArray vs ws))
  exact congrArg (fun violations => { c with hashes := hashes', violations }) hlist

/-- **A checker serves an arena** as if nothing had been checked: its walkers
are like new ones, and its table holds fingerprints. -/
structure Serves (c : GroupChecker) (a : Arena) (o : Options) : Prop where
  comparer : c.comparer = .new o.policy o.maxDepth
  hasher : c.hasher = .new o.maxDepth
  hashes : ∀ {l hash}, c.hashes[l]? = some hash → a.lambdaHash o.maxDepth l = .ok hash

theorem serves_new (a : Arena) (o : Options) : (new o).Serves a o where
  comparer := rfl
  hasher := rfl
  hashes h := by
    rw [show (new o).hashes = ∅ from rfl, Std.ExtTreeMap.getElem?_empty] at h
    cases h

/-- It does not matter what was found. -/
theorem Serves.of_after {hashes : Std.ExtTreeMap LambdaId UInt64} {vs : List GroupViolation}
    (h : (c.after hashes vs).Serves a o) (ws : List GroupViolation) :
    (c.after hashes ws).Serves a o :=
  ⟨h.comparer, h.hasher, h.hashes⟩

/-- A comparison is that of a new comparer, and leaves the checker as it is. -/
theorem run_compareLambdas (h : c.Serves a o) :
    (compareLambdas a l r).run c =
      (a.compareLambdas o.policy o.maxDepth l r).map fun outcome => (outcome, c) := by
  have hanswer : (c.comparer.compareLambdas a l r) =
      (a.compareLambdas o.policy o.maxDepth l r, c.comparer) := by
    refine Prod.ext ?_ (c.comparer.compareLambdas_snd a l r)
    rw [h.comparer]
    rfl
  unfold compareLambdas
  rw [StateT.run_bind, StateT.run_get, pure_bind, hanswer]
  cases a.compareLambdas o.policy o.maxDepth l r <;> rfl

/-- So is the question whether two lambdas are equivalent. -/
theorem run_equivalent (h : c.Serves a o) :
    (equivalent a l r).run c =
      (a.compareLambdas o.policy o.maxDepth l r).map fun outcome => (outcome.isEquivalent, c) := by
  have hanswer : (c.comparer.equivalent a l r) =
      ((a.compareLambdas o.policy o.maxDepth l r).map Outcome.isEquivalent, c.comparer) := by
    refine Prod.ext ?_ (c.comparer.compareLambdas_snd a l r)
    rw [h.comparer]
    rfl
  unfold equivalent
  rw [StateT.run_bind, StateT.run_get, pure_bind, hanswer]
  cases a.compareLambdas o.policy o.maxDepth l r <;> rfl

/-- **A fingerprint is that of a new hasher**, be it computed or remembered.
At most the table is changed. -/
theorem run_lambdaHash (h : c.Serves a o) :
    ∃ hashes, (c.after hashes []).Serves a o ∧
      (lambdaHash a l).run c =
        (a.lambdaHash o.maxDepth l).map fun hash => (hash, c.after hashes []) := by
  unfold lambdaHash
  rw [StateT.run_bind, StateT.run_get, pure_bind]
  cases hknown : c.hashes[l]? with
  | some hash =>
    refine ⟨c.hashes, after_nil.symm ▸ h, ?_⟩
    rw [h.hashes hknown, after_nil]
    rfl
  | none =>
    have hanswer : c.hasher.lambdaHash a l = (a.lambdaHash o.maxDepth l, c.hasher) := by
      refine Prod.ext ?_ (Hasher.restores_answer a (.lambda l) c.hasher)
      rw [h.hasher]
      rfl
    rw [hanswer]
    cases hhash : a.lambdaHash o.maxDepth l with
    | error fault => exact ⟨c.hashes, after_nil.symm ▸ h, rfl⟩
    | ok hash =>
      refine ⟨c.hashes.insert l hash, ⟨h.comparer, h.hasher, fun {m hash'} hm => ?_⟩, ?_⟩
      · change (c.hashes.insert l hash)[m]? = some hash' at hm
        rw [Std.ExtTreeMap.getElem?_insert] at hm
        split at hm
        next heq =>
          obtain rfl := Std.LawfulEqOrd.eq_of_compare heq
          rw [hhash, Option.some.inj hm]
        next => exact h.hashes hm
      · rw [after, Array.append_empty]
        rfl

/-! ## What a checker reports -/

/-- **Work reports violations** if, in any checker that serves the arena, it
adds them to the list, or stops with the fault that is there in place of
them. Apart from that, at most the table of fingerprints is changed. -/
def Reports (a : Arena) (o : Options) (work : Work Unit)
    (violations : Except Fault (List GroupViolation)) : Prop :=
  ∀ c, c.Serves a o → ∃ hashes, (c.after hashes []).Serves a o ∧
    work.run c = violations.map fun vs => ((), c.after hashes vs)

namespace Reports

variable {work work' : Work Unit} {violations violations' : Except Fault (List GroupViolation)}

/-- Doing nothing reports nothing. -/
theorem nil : Reports a o (pure ()) (.ok []) := by
  intro c h
  refine ⟨c.hashes, after_nil.symm ▸ h, ?_⟩
  rw [StateT.run_pure, Except.map, after_nil]
  rfl

theorem report (violation : GroupViolation) :
    Reports a o (GroupChecker.report violation) (.ok [violation]) :=
  fun c h => ⟨c.hashes, after_nil.symm ▸ h, rfl⟩

/-- What is reported one after the other is listed one after the other. -/
theorem append (h : Reports a o work violations) (h' : Reports a o work' violations') :
    Reports a o (do work; work') (do
      let vs ← violations
      return vs ++ (← violations')) := by
  intro c hc
  obtain ⟨hashes, hserves, hrun⟩ := h c hc
  rw [StateT.run_bind, hrun]
  cases violations with
  | error fault => exact ⟨hashes, hserves, rfl⟩
  | ok vs =>
    obtain ⟨hashes', hserves', hrun'⟩ := h' (c.after hashes vs) (hserves.of_after vs)
    rw [after_after] at hserves'
    refine ⟨hashes', hserves'.of_after [], hrun'.trans ?_⟩
    cases violations' with
    | error fault => rfl
    | ok ws => exact congrArg (fun c => Except.ok ((), c)) after_after

/-- What is reported after a comparison may depend on its outcome. -/
theorem compareLambdas {next : Outcome → Work Unit}
    {violations : Outcome → Except Fault (List GroupViolation)}
    (h : ∀ outcome, Reports a o (next outcome) (violations outcome)) :
    Reports a o (GroupChecker.compareLambdas a l r >>= next)
      (a.compareLambdas o.policy o.maxDepth l r >>= violations) := by
  intro c hc
  rw [StateT.run_bind, run_compareLambdas hc]
  cases a.compareLambdas o.policy o.maxDepth l r with
  | error fault => exact ⟨c.hashes, after_nil.symm ▸ hc, rfl⟩
  | ok outcome => exact h outcome c hc

theorem equivalent {next : Bool → Work Unit}
    {violations : Outcome → Except Fault (List GroupViolation)}
    (h : ∀ outcome, Reports a o (next outcome.isEquivalent) (violations outcome)) :
    Reports a o (GroupChecker.equivalent a l r >>= next)
      (a.compareLambdas o.policy o.maxDepth l r >>= violations) := by
  intro c hc
  rw [StateT.run_bind, run_equivalent hc]
  cases a.compareLambdas o.policy o.maxDepth l r with
  | error fault => exact ⟨c.hashes, after_nil.symm ▸ hc, rfl⟩
  | ok outcome => exact h outcome c hc

/-- What is reported on a fingerprint may depend on it. -/
theorem lambdaHash {next : UInt64 → Work Unit}
    {violations : UInt64 → Except Fault (List GroupViolation)}
    (h : ∀ hash, Reports a o (next hash) (violations hash)) :
    Reports a o (GroupChecker.lambdaHash a l >>= next)
      (a.lambdaHash o.maxDepth l >>= violations) := by
  intro c hc
  obtain ⟨hashes, hserves, hrun⟩ := run_lambdaHash (l := l) hc
  rw [StateT.run_bind, hrun]
  cases a.lambdaHash o.maxDepth l with
  | error fault => exact ⟨hashes, hserves, rfl⟩
  | ok hash =>
    obtain ⟨hashes', hserves', hrun'⟩ := h hash _ hserves
    rw [after_after] at hserves'
    simp only [after_after] at hrun'
    exact ⟨hashes', hserves', hrun'⟩

/-- The list of a single pair is checked by checking the pair. -/
theorem pair (h : Reports a o work (check l r)) : Reports a o work (checkPairs check [(l, r)]) := by
  have hpair : checkPairs check [(l, r)] = check l r := by
    unfold checkPairs checkPairs
    cases check l r with
    | error fault => rfl
    | ok vs => exact congrArg Except.ok (List.append_nil vs)
  rwa [hpair]

/-- What a new checker lists in the end is what was reported. -/
theorem violations_new (h : Reports a o work violations) :
    (do
      let ((), c) ← work.run (new o)
      return c.violations.toList) = violations := by
  obtain ⟨hashes, -, hrun⟩ := h (new o) (serves_new a o)
  rw [hrun]
  cases violations with
  | error fault => rfl
  | ok vs => exact congrArg Except.ok (congrArg Array.toList Array.empty_append)

/-- A loop reports on one pair after the other, if what it does in a turn
reports on some of them. -/
theorem forM {α : Type} {work : α → Work Unit} {pairs : α → List (LambdaId × LambdaId)}
    (h : ∀ x, Reports a o (work x) (checkPairs check (pairs x))) (xs : List α) :
    Reports a o (xs.forM work) (checkPairs check (xs.flatMap pairs)) := by
  induction xs with
  | nil => exact nil
  | cons x xs ih =>
    rw [List.flatMap_cons, checkPairs_append]
    exact (h x).append ih

end Reports

/-- Two lambdas of one equal group are checked as if they were the only ones. -/
theorem reports_checkEqual :
    Reports a o (checkEqual a l r) (LambdaSharing.checkEqual a o l r) := by
  refine .compareLambdas fun outcome => ?_
  cases outcome with
  | diverged d => exact .report _
  | equivalent =>
    refine .lambdaHash fun hl => .lambdaHash fun hr => ?_
    by_cases hne : hl ≠ hr
    · rw [if_pos hne, if_pos hne]
      exact .report _
    · rw [if_neg hne, if_neg hne]
      exact .nil

/-- Two lambdas of different groups are checked as if they were the only ones. -/
theorem reports_checkDistinct :
    Reports a o (checkDistinct a l r) (LambdaSharing.checkDistinct a o l r) := by
  refine .equivalent fun outcome => ?_
  have hcollision : Reports a o
      (do if (← GroupChecker.lambdaHash a l) = (← GroupChecker.lambdaHash a r) then
        GroupChecker.report (.hashCollision l r))
      (do
        let hl ← a.lambdaHash o.maxDepth l
        let hr ← a.lambdaHash o.maxDepth r
        return if hl = hr then [.hashCollision l r] else []) := by
    refine .lambdaHash fun hl => .lambdaHash fun hr => ?_
    by_cases heq : hl = hr
    · rw [if_pos heq, if_pos heq]
      exact .report _
    · rw [if_neg heq, if_neg heq]
      exact .nil
  cases outcome with
  | diverged d => exact hcollision
  | equivalent =>
    have h := (Reports.report (.expectedDistinct l r)).append hcollision
    simp only [bind_assoc] at h
    exact h

/-! ## The loops -/

/-- A group is checked by its pairs. -/
theorem reports_checkWithin (group : List LambdaId) :
    Reports a o (checkWithin a group)
      (checkPairs (LambdaSharing.checkEqual a o) (orderedPairs group)) := by
  refine .forM (fun (l, i) => ?_) group.zipIdx
  show Reports a o (group.zipIdx.forM _) (checkPairs _ ((group.zipIdx.filter _).map _))
  rw [map_filter_eq_flatMap]
  refine .forM (fun (r, j) => ?_) group.zipIdx
  -- the place itself is passed over
  by_cases hplace : i = j
  · simp only [hplace, ne_eq, not_true_eq_false, decide_false, Bool.false_eq_true, if_false,
      if_true]
    exact .nil
  · simp only [hplace, ne_eq, not_false_eq_true, decide_true, if_false, if_true]
    exact .pair reports_checkEqual

/-- A family of groups is checked by the pairs of members of different
groups. -/
theorem reports_checkAcross (groups : List (List LambdaId)) :
    Reports a o (checkAcross a groups)
      (checkPairs (LambdaSharing.checkDistinct a o) (crossPairs groups)) := by
  induction groups with
  | nil => exact .nil
  | cons group rest ih =>
    rw [crossPairs, checkPairs_append]
    refine .append (.forM (fun other => .forM (fun l => ?_) group) rest) ih
    rw [List.map_eq_flatMap]
    exact .forM (fun r => .pair reports_checkDistinct) other

/-- All groups are checked by their pairs. -/
theorem reports_checkAll (equal notEqual : List (List LambdaId)) :
    Reports a o (checkAll a equal notEqual) (do
      let within ← checkPairs (LambdaSharing.checkEqual a o) (equal.flatMap orderedPairs)
      let across ← checkPairs (LambdaSharing.checkDistinct a o) (crossPairs equal)
      let others ← checkPairs (LambdaSharing.checkDistinct a o) (crossPairs notEqual)
      return within ++ across ++ others) := by
  have h := (Reports.forM reports_checkWithin equal).append
    ((reports_checkAcross (a := a) (o := o) equal).append (reports_checkAcross notEqual))
  simp only [bind_assoc, pure_bind, ← List.append_assoc] at h
  exact h

end GroupChecker

/-- **Groups are checked pair by pair**, as if nothing was kept from one pair
to the next. -/
theorem checkGroups_eq (a : Arena) (o : Options) (equal notEqual : List (List LambdaId)) :
    checkGroups a o equal notEqual = do
      let within ← checkPairs (checkEqual a o) (equal.flatMap orderedPairs)
      let across ← checkPairs (checkDistinct a o) (crossPairs equal)
      let others ← checkPairs (checkDistinct a o) (crossPairs notEqual)
      return within ++ across ++ others :=
  (GroupChecker.reports_checkAll equal notEqual).violations_new

end LambdaSharing
