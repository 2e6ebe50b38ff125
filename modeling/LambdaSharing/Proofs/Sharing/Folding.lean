import LambdaSharing.Proofs.Sharing.History
import LambdaSharing.Proofs.Sharing.Methods
import LambdaSharing.Proofs.Sharing.Plain
import LambdaSharing.Sharing.Contract

/-!
# What a plan folds

A plan has no list of the lambdas that are folded. Whoever wants one goes
through the call sites and looks up the class of each, and the contract on
plans puts what is found there into a table again, to look up the lambdas that
should be folded. In any other plan a lambda may have two call sites, or a
class that is missing.

In the plan of a registry both detours lead where they should: the folded
lambdas are those that joined a class, each with the first lambda of the class
(`Registry.Keeps.deduplicated_eq`), and a lambda is found in the table if it
is one of them (`Registry.Keeps.folded?_eq_some_iff`). The other call sites
are those of the lambdas that started a class, so that the half of the
contract that is about methods always holds (`Registry.Keeps.checkMethods_eq`),
and what is left of it is to look up lambdas. Of a plan that is handed out,
all of this can be said in terms of what the plan answers for single lambdas
(`Registry.contract_of_plan`).
-/

namespace LambdaSharing

/-! ## Foldings in a ledger -/

namespace Ledger

variable {g : Ledger} {l m : LambdaId} {a : Arena} {o : Options}

/-- The lambdas that joined a class, in order, each with the lambda that had
started it. -/
def foldings (g : Ledger) : List (LambdaId × LambdaId) :=
  (g.entries.filter fun e => e.2.canonical ≠ e.1).map fun e => (e.1, e.2.canonical)

theorem mem_foldings_iff :
    (l, m) ∈ g.foldings ↔ ∃ x, (l, x) ∈ g.entries ∧ x.canonical = m ∧ m ≠ l := by
  unfold foldings
  rw [List.mem_map]
  constructor
  · rintro ⟨⟨k, x⟩, he, heq⟩
    obtain ⟨rfl, rfl⟩ := Prod.mk.inj heq
    obtain ⟨he, hother⟩ := List.mem_filter.1 he
    exact ⟨x, he, rfl, of_decide_eq_true hother⟩
  · rintro ⟨x, he, rfl, hother⟩
    exact ⟨(l, x), List.mem_filter.2 ⟨he, decide_eq_true hother⟩, rfl⟩

/-- There are as many foldings as lambdas that joined a class. -/
theorem length_foldings : g.foldings.length = g.folded := by
  rw [foldings, List.length_map, folded, List.countP_eq_length_filter]

/-- A lambda is folded once. -/
theorem Kept.nodup_foldings (h : g.Kept) : (g.foldings.map Prod.fst).Nodup := by
  unfold foldings
  rw [List.map_map]
  exact h.nodup.sublist (List.filter_sublist.map Prod.fst)

/-- What a call site uses in place of its lambda, if another one started the
class. -/
theorem foldedInto?_plan (h : g.Kept) {e : LambdaId × Reference} (he : e ∈ g.entries) :
    (g.plan a o).foldedInto? (g.site a e) =
      if e.2.canonical ≠ e.1 then some e.2.canonical else none := by
  have hclass := class?_plan (a := a) (o := o) h (h.mem_classes he)
  rw [Plan.foldedInto?, show (g.site a e).classId = e.2.classId from rfl, hclass]
  rfl

/-- **The plan of a ledger folds the lambdas that joined a class.** -/
theorem deduplicated_plan (h : g.Kept) : (g.plan a o).deduplicated = g.foldings := by
  show ((g.entries.map (g.site a)).toArray.toList.filterMap _) = _
  rw [List.filterMap_map, foldings, ← List.filterMap_eq_map, List.filterMap_filter]
  refine List.filterMap_congr fun e he => ?_
  show ((g.plan a o).foldedInto? (g.site a e)).map ((g.site a e).lambda, ·) = _
  rw [foldedInto?_plan h he]
  by_cases hother : e.2.canonical ≠ e.1
  · rw [if_pos hother, if_pos (decide_eq_true hother)]
    rfl
  · rw [if_neg hother, if_neg (mt of_decide_eq_true hother)]
    rfl

end Ledger

/-! ## The contract on plans -/

namespace Plan

variable {p : Plan} {l m : LambdaId} {equal : List (List LambdaId)}

/-- If a lambda is folded once, it does not matter which of its foldings
counts. -/
theorem folded?_eq_some_iff_mem (h : (p.deduplicated.map Prod.fst).Nodup) :
    p.folded? l = some m ↔ (l, m) ∈ p.deduplicated := by
  rw [folded?, lookup_eq_some_iff_mem (by rwa [List.map_reverse, List.nodup_reverse]),
    List.mem_reverse]

/-- What is wrong with the folding of a lambda has nothing to do with
methods. -/
theorem methodMismatch_notMem_checkFolded {expected actual : List Method} :
    .methodMismatch expected actual ∉ p.checkFolded l m := by
  unfold checkFolded
  cases p.folded? l with
  | none => simp
  | some k => split <;> simp

/-- Nothing is wrong with a lambda that is folded into the one expected. -/
theorem checkFolded_eq_nil_iff : p.checkFolded l m = [] ↔ p.folded? l = some m := by
  unfold checkFolded
  cases p.folded? l with
  | none => simp
  | some k =>
    by_cases h : k = m
    · simp [h]
    · simp [h]

end Plan

/-- What groups ask for: a later lambda of a group is folded into the first. -/
theorem mem_expectedDeduplication_iff {l m : LambdaId} {equal : List (List LambdaId)} :
    (l, m) ∈ expectedDeduplication equal ↔ ∃ later, m :: later ∈ equal ∧ l ∈ later := by
  unfold expectedDeduplication
  rw [List.mem_flatMap]
  constructor
  · rintro ⟨group, hgroup, hl⟩
    cases group with
    | nil => cases hl
    | cons first later =>
      obtain ⟨k, hk, heq⟩ := List.mem_map.1 hl
      obtain ⟨rfl, rfl⟩ := Prod.mk.inj heq
      exact ⟨later, hgroup, hk⟩
  · rintro ⟨later, hgroup, hl⟩
    exact ⟨m :: later, hgroup, List.mem_map.2 ⟨l, hl, rfl⟩⟩

namespace Registry

variable {a : Arena} {r : Registry a} {g : Ledger} {l m : LambdaId}

namespace Keeps

/-- The lambdas that started a class are those that represent themselves. -/
theorem mem_canonicals_iff (h : r.Keeps g) :
    l ∈ r.draft.classes.toList.map (·.canonical) ↔
      ∃ x, r.canonical? l = some x ∧ x.canonical = l := by
  rw [h.classes_eq, List.map_map, List.mem_map, h.canonical?_eq]
  simp only [h.kept.reference?_eq_some_iff]
  constructor
  · rintro ⟨x, hx, rfl⟩
    exact ⟨x, Ledger.mem_classes_iff.1 hx, rfl⟩
  · rintro ⟨x, hx, rfl⟩
    exact ⟨x, Ledger.mem_classes_iff.2 hx, rfl⟩

/-- **A registry folds the lambdas that joined a class.** -/
theorem deduplicated_eq (h : r.Keeps g) : r.draft.deduplicated = g.foldings := by
  rw [← deduplicated_withoutSearch, h.plan, Ledger.deduplicated_plan h.kept]

/-- The lambdas that are folded are accepted ones that another one represents. -/
theorem mem_deduplicated_iff (h : r.Keeps g) :
    (l, m) ∈ r.draft.deduplicated ↔ ∃ x, r.canonical? l = some x ∧ x.canonical = m ∧ m ≠ l := by
  rw [h.deduplicated_eq, Ledger.mem_foldings_iff, h.canonical?_eq]
  simp only [h.kept.reference?_eq_some_iff]

/-- A lambda is folded once. -/
theorem nodup_deduplicated (h : r.Keeps g) : (r.draft.deduplicated.map Prod.fst).Nodup := by
  rw [h.deduplicated_eq]
  exact h.kept.nodup_foldings

/-- **A lambda is found folded** if it was accepted and another one represents
it. -/
theorem folded?_eq_some_iff (h : r.Keeps g) :
    r.draft.folded? l = some m ↔ ∃ x, r.canonical? l = some x ∧ x.canonical = m ∧ m ≠ l := by
  rw [Plan.folded?_eq_some_iff_mem h.nodup_deduplicated, h.mem_deduplicated_iff]

/-- A lambda is not found folded if it was entered as the first of a class. -/
theorem isNone_folded? (h : r.Keeps g) {e : LambdaId × Reference} (he : e ∈ g.entries) :
    (r.draft.folded? e.1).isNone = decide (e.2.canonical = e.1) := by
  have hx : r.canonical? e.1 = some e.2 := by
    rw [h.canonical?_eq]
    exact h.kept.reference?_eq_some_iff.2 he
  by_cases hself : e.2.canonical = e.1
  · rw [decide_eq_true hself, Option.isNone_iff_eq_none, Option.eq_none_iff_forall_ne_some]
    intro m hm
    obtain ⟨y, hy, rfl, hother⟩ := h.folded?_eq_some_iff.1 hm
    obtain rfl := Option.some.inj (hx.symm.trans hy)
    exact hother hself
  · rw [decide_eq_false hself, h.folded?_eq_some_iff.2 ⟨e.2, hx, rfl, hself⟩]
    rfl

/-- **The methods of a plan are those of the lambdas that are not folded.** -/
theorem checkMethods_eq (h : r.Keeps g) : r.draft.checkMethods = [] := by
  have hunfolded : ((r.draft.callSites.toList.filter fun site =>
      (r.draft.folded? site.lambda).isNone).map (·.method)) = r.draft.methods := by
    have hfilter : (g.entries.filter fun e => (r.draft.folded? e.1).isNone) =
        g.entries.filter fun e => e.2.canonical = e.1 :=
      List.filter_congr fun e he => h.isNone_folded? he
    rw [h.callSites_eq, List.filter_map, List.map_map, h.methods_eq, Ledger.classes, List.map_map,
      ← hfilter]
    rfl
  unfold Plan.checkMethods
  exact if_neg (not_not_intro (congrArg Plan.methodSet hunfolded))

/-- **The plan of a registry meets the contract** if every later lambda of a
group is found folded into the first one. -/
theorem check_eq_nil_iff (h : r.Keeps g) {equal : List (List LambdaId)} :
    r.draft.check equal = [] ↔
      ∀ l m, (l, m) ∈ expectedDeduplication equal → r.draft.folded? l = some m := by
  rw [Plan.check, h.checkMethods_eq, List.append_nil, List.flatMap_eq_nil_iff]
  simp only [Plan.checkFolded_eq_nil_iff, Prod.forall]

/-- Whatever is wrong with the plan of a registry, it is not its methods. -/
theorem methodMismatch_notMem_check (h : r.Keeps g) {equal : List (List LambdaId)}
    {expected actual : List Method} : .methodMismatch expected actual ∉ r.draft.check equal := by
  rw [Plan.check, h.checkMethods_eq, List.append_nil, List.mem_flatMap]
  rintro ⟨_, -, hmem⟩
  exact Plan.methodMismatch_notMem_checkFolded hmem

/-- The foldings of a ledger can be read off from what the plan says of each
accepted lambda. -/
theorem foldings_eq (h : r.Keeps g) :
    g.foldings =
      (g.lambdas.filterMap fun l => (r.canonical? l).map fun x => (l, x.canonical)).filter
        fun e => e.2 ≠ e.1 := by
  have hreferences : (g.lambdas.filterMap fun l => (r.canonical? l).map fun x => (l, x.canonical)) =
      g.entries.map fun e => (e.1, e.2.canonical) := by
    rw [Ledger.lambdas, List.filterMap_map, ← List.filterMap_eq_map]
    refine List.filterMap_congr fun e he => ?_
    show (r.canonical? e.1).map _ = _
    rw [h.canonical?_eq, h.kept.reference?_eq_some_iff.2 he]
    rfl
  rw [hreferences, List.filter_map]
  rfl

end Keeps

/-! ## Plans that are handed out -/

/-- **What the plan of a registry folds, and what groups may ask of it.** After
any requests, a plan that was handed out says of the accepted lambdas, and of
no others, where they ended up. It folds those that ended up with another
lambda, in order of acceptance, and counts them. Held against equal groups, no
plan is ever at fault with its methods; and nothing is wrong with it if and
only if every later lambda of a group was accepted and ended up not with
itself, but with the first lambda of the group. -/
theorem contract_of_plan (a : Arena) (o : Options) (requests : List Request) {p : Plan}
    (hp : .plan p ∈ ((new a o).run requests).1) (equal : List (List LambdaId)) :
    let ls := accepted requests ((new a o).run requests).1
    (∀ l, (∃ x, p.canonical? l = some x) ↔ l ∈ ls) ∧
    p.deduplicated =
      ((ls.filterMap fun l => (p.canonical? l).map fun x => (l, x.canonical)).filter
        fun e => e.2 ≠ e.1) ∧
    p.deduplicated.length = p.stats.deduplicated.toNat ∧
    (∀ expected actual, .methodMismatch expected actual ∉ p.check equal) ∧
    (p.check equal = [] ↔ ∀ first later, first :: later ∈ equal → ∀ l ∈ later,
      l ∈ ls ∧ ∃ x, p.canonical? l = some x ∧ x.canonical ≠ l ∧ x.canonical = first) := by
  intro ls
  have hkeeps := (Keeps.new a o).run requests
  have hlambdas : ls = _ :=
    Ledger.lambdas_recordAll (g := {}) [] rfl requests ((new a o).run requests).1
  have hknown (l : LambdaId) : (∃ x, p.canonical? l = some x) ↔ l ∈ ls := by
    rw [← Option.isSome_iff_exists, ← Option.ne_none_iff_isSome, ← draft_of_mem_run hp]
    exact not_iff_comm.1 (canonical?_run_eq_none_iff a o requests l).symm
  obtain rfl := draft_of_mem_run hp
  refine ⟨hknown, ?_, ?_, fun _ _ => hkeeps.methodMismatch_notMem_check, ?_⟩
  · rw [hkeeps.deduplicated_eq, hlambdas]
    exact hkeeps.foldings_eq
  · rw [hkeeps.deduplicated_eq, Ledger.length_foldings, hkeeps.toNat_deduplicated]
  · rw [hkeeps.check_eq_nil_iff]
    simp only [mem_expectedDeduplication_iff, hkeeps.folded?_eq_some_iff]
    constructor
    · intro h first later hgroup l hl
      obtain ⟨x, hx, rfl, hother⟩ := h l first ⟨later, hgroup, hl⟩
      exact ⟨(hknown l).1 ⟨x, hx⟩, x, hx, hother, rfl⟩
    · rintro h l first ⟨later, hgroup, hl⟩
      obtain ⟨-, x, hx, hother, rfl⟩ := h first later hgroup l hl
      exact ⟨x, hx, rfl, hother⟩

/-- The second of the five lambdas is folded into the first. So nothing is
wrong if they are a group in this order, but something is in the other. -/
theorem contract_of_plan_of_fiveLambdas :
    let o : Options := ⟨true, .positional, 2, {}⟩
    let requests : List Request := [⟨0⟩, ⟨9⟩, ⟨2⟩, ⟨1⟩].map .submit ++ [.finalize]
    let p := ((new Arena.fiveLambdas o).run requests).2.draft
    .plan p ∈ ((new Arena.fiveLambdas o).run requests).1 ∧
      p.deduplicated = [(⟨1⟩, ⟨0⟩)] ∧ p.deduplicated.length = p.stats.deduplicated.toNat ∧
      p.check [[⟨0⟩, ⟨1⟩], [⟨2⟩]] = [] ∧ p.check [[⟨1⟩, ⟨0⟩]] ≠ [] := by
  intro o requests p
  have hp : .plan p ∈ ((new Arena.fiveLambdas o).run requests).1 :=
    plan_mem_run_concat (by decide +kernel)
  have hfirst : p.canonical? ⟨0⟩ = some ⟨⟨0⟩, ⟨0⟩⟩ := by decide +kernel
  have hsecond : p.canonical? ⟨1⟩ = some ⟨⟨0⟩, ⟨0⟩⟩ := by decide +kernel
  obtain ⟨hknown, -, hlength, -, hcheck⟩ :=
    contract_of_plan Arena.fiveLambdas o requests hp [[⟨0⟩, ⟨1⟩], [⟨2⟩]]
  obtain ⟨-, -, -, -, hcheck'⟩ := contract_of_plan Arena.fiveLambdas o requests hp [[⟨1⟩, ⟨0⟩]]
  refine ⟨hp, by decide +kernel, hlength, hcheck.2 ?_, fun hnil => ?_⟩
  · simp only [List.mem_cons, List.cons.injEq, List.not_mem_nil, or_false]
    rintro first later (⟨rfl, rfl⟩ | ⟨rfl, rfl⟩) l hl
    · obtain rfl := List.mem_singleton.1 hl
      exact ⟨(hknown _).1 ⟨_, hsecond⟩, _, hsecond, by decide, rfl⟩
    · cases hl
  · obtain ⟨-, x, hx, hother, -⟩ :=
      hcheck'.1 hnil ⟨1⟩ [⟨0⟩] List.mem_cons_self ⟨0⟩ List.mem_cons_self
    obtain rfl := Option.some.inj (hfirst.symm.trans hx)
    exact hother rfl

end Registry

end LambdaSharing
