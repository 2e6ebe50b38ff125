import LambdaSharing.Proofs.Sharing.Folding
import LambdaSharing.Proofs.Sharing.History
import LambdaSharing.Proofs.Sharing.Units
import Mathlib.Data.List.Induction

/-!
# Sharing again changes nothing

The canonical lambdas of a plan are those that code is generated from. If they
are all that is left of a unit, and are shared again, nothing is folded any
more, and every class is found again under its number, with its fingerprint
and its method.

For this, any two of them have to be told apart, and most of them were never
compared: a lambda is compared with some that were canonical when it came, up
to the first that it is equivalent to, and with none that came later. That
different classes have canonical lambdas that are not alike is what makes a
registry coherent. So in the second run no search finds anything. The rest is
a matter of numbers. Those of the classes are counted without the lambdas that
were folded or refused, and so are the ordinals of an owner, so that neither
changes when these are gone.
-/

namespace LambdaSharing

/-! ## Classes by themselves -/

namespace Ledger

/-- The ledger in which each of the given classes has its canonical lambda, and
no other. -/
def ofClasses (xs : List Reference) : Ledger := ⟨xs.map fun x => (x.canonical, x)⟩

variable {xs : List Reference} {x : Reference} {g : Ledger} {a : Arena} {o : Options}

theorem lambdas_ofClasses : (ofClasses xs).lambdas = xs.map (·.canonical) := List.map_map

theorem ofClasses_concat : ofClasses (xs ++ [x]) = (ofClasses xs).add x.canonical x :=
  congrArg Ledger.mk List.map_append

/-- Every lambda of the ledger has started a class. -/
theorem classes_ofClasses : (ofClasses xs).classes = xs := by
  unfold classes ofClasses
  rw [List.filter_eq_self.2 (by simp), List.map_map]
  exact List.map_id xs

/-- So none was folded. -/
theorem foldings_ofClasses : (ofClasses xs).foldings = [] := by
  unfold foldings ofClasses
  rw [List.filter_eq_nil_iff.2 (by simp), List.map_nil]

theorem folded_ofClasses : (ofClasses xs).folded = 0 := by
  unfold folded ofClasses
  exact List.countP_eq_zero.2 (by simp)

/-- A class has its canonical lambda as its only member. -/
theorem members_ofClasses (h : xs.Nodup) (hx : x ∈ xs) :
    (ofClasses xs).members x = [x.canonical] := by
  unfold members ofClasses
  rw [List.filter_map, List.map_map]
  show (xs.filter fun y => y = x).map (·.canonical) = [x.canonical]
  rw [List.filter_eq, List.count_eq_one_of_mem h hx]
  rfl

/-- Otherwise a class is what it is in a ledger with more entries. -/
theorem sharingClass_ofClasses (h : g.classes.Nodup) (hx : x ∈ g.classes) :
    (ofClasses g.classes).sharingClass a o x =
      { g.sharingClass a o x with members := #[x.canonical] } := by
  unfold sharingClass method
  rw [members_ofClasses h hx, classes_ofClasses]

/-- The next class is the one that comes next in the other ledger. -/
theorem Kept.nextClass_ofClasses (h : g.Kept) (hx : g.classes[xs.length]? = some x) :
    (ofClasses xs).nextClass = x.classId := by
  have hplace : x.classId.index.toNat = xs.length := h.toNat_classId hx
  have hlt : xs.length < UInt32.size := hplace ▸ x.classId.index.toNat_lt
  refine ClassId.toNat_index_inj ?_
  show (UInt32.ofNat (ofClasses xs).classes.length).toNat = x.classId.index.toNat
  rw [classes_ofClasses, hplace, UInt32.toNat_ofNat_of_lt' hlt]

end Ledger

/-! ## The second run -/

namespace Registry

variable {a : Arena} {r s : Registry a} {g : Ledger} {xs : List Reference} {x : Reference}
  {e : Examination} {o : Options}

namespace Keeps

/-- Different classes have different canonical lambdas. -/
theorem nodup_canonicals (h : r.Keeps g) (hr : r.Coherent) :
    (g.classes.map (·.canonical)).Nodup := by
  have hnodup := hr.nodup_canonical
  rw [h.classes_eq, List.map_map] at hnodup
  exact hnodup

/-- **No class is found for a canonical lambda** among those of other canonical
lambdas. -/
theorem found_eq_none (h : r.Keeps g) (hr : r.Coherent) (hs : s.Keeps (.ofClasses xs))
    (hoptions : s.options = r.options) (hxs : xs ⊆ g.classes) (hx : x ∈ g.classes)
    (hnew : x.canonical ∉ xs.map (·.canonical)) (he : s.examine x.canonical = .ok e) :
    e.search.found = none := by
  rw [Option.eq_none_iff_forall_ne_some]
  rintro ⟨id, c⟩ hfound
  obtain ⟨hy, -⟩ := hs.found he hfound
  obtain ⟨-, halike⟩ := leader?_of_found he hfound
  rw [Ledger.classes_ofClasses] at hy
  rw [hoptions] at halike
  have hnumber := hr.apart (h.leader?_eq hx) (h.leader?_eq (hxs hy)) halike
  have hsame := h.kept.classId_inj hx (hxs hy) hnumber
  exact hnew (hsame ▸ List.mem_map_of_mem hy)

/-- **A canonical lambda that is submitted again starts its class again**, under
the same number, if the classes before it have been started. -/
theorem submit_canonical (h : r.Keeps g) (hr : Reachable o r) (hs : s.Keeps (.ofClasses xs))
    (hs' : Reachable o s) (hphase : s.phase ≠ .finalized) (hxs : xs ++ [x] <+: g.classes) :
    (s.submit x.canonical).2.Keeps (.ofClasses (xs ++ [x])) := by
  have hoptions : s.options = r.options := hs'.options_eq.trans hr.options_eq.symm
  obtain ⟨rest, hrest⟩ := hxs
  have hmem : ∀ y, y ∈ xs ∨ y = x → y ∈ g.classes := fun y hy => hrest ▸ by simp [← or_assoc, hy]
  have hx : x ∈ g.classes := hmem x (.inr rfl)
  have hplace : g.classes[xs.length]? = some x := by
    rw [← hrest, List.append_assoc, List.getElem?_append_right (Nat.le_refl _), Nat.sub_self]
    rfl
  have hnew : x.canonical ∉ xs.map (·.canonical) := by
    have hnodup := h.nodup_canonicals hr.coherent
    rw [← hrest, List.append_assoc, List.map_append, List.singleton_append, List.map_cons,
      List.nodup_middle] at hnodup
    exact fun hold => (List.nodup_cons.1 hnodup).1 (List.mem_append_left _ hold)
  have hunknown : s.canonical? x.canonical = none := by
    rw [hs.canonical?_eq, hs.kept.reference?_eq_none_iff, Ledger.lambdas_ofClasses]
    exact hnew
  have hhash := h.lambdaHash_canonical hr.coherent hx
  rw [← hoptions] at hhash
  obtain ⟨e, he⟩ := hs'.coherent.examine_isOk hhash
  have hfound : e.search.found = none :=
    h.found_eq_none hr.coherent hs hoptions (fun y hy => hmem y (.inl hy)) hx hnew he
  have haccepted := hs.accept_none (hs.notMem_lambdas hunknown) he hfound
  rw [h.kept.nextClass_ofClasses hplace, ← Ledger.ofClasses_concat] at haccepted
  rw [submit, if_neg hphase, hunknown, he]
  exact haccepted

/-- **All classes are started again**, under the same numbers, and nothing
else happens. -/
theorem submitAll_canonicals (h : r.Keeps g) (hr : Reachable o r) (hxs : xs <+: g.classes) :
    ((Registry.new a o).submitAll (xs.map (·.canonical))).2.Keeps (.ofClasses xs) := by
  induction xs using List.reverseRecOn with
  | nil => exact .new a o
  | append_singleton xs x ih =>
    have hs := ih ((List.prefix_append xs [x]).trans hxs)
    rw [List.map_append, List.map_singleton, submitAll_concat_snd]
    exact h.submit_canonical hr hs (Reachable.new.submissions _) (phase_submitAll a o _) hxs

/-- None of them is refused. -/
theorem failures_canonicals (h : r.Keeps g) (hr : Reachable o r) :
    ((Registry.new a o).submitAll (g.classes.map (·.canonical))).1 = [] := by
  rw [Reachable.new.submitAll_fst Phase.noConfusion, List.map_eq_nil_iff,
    List.filterMap_eq_nil_iff, List.forall_mem_map]
  intro x hx
  have hhash := h.lambdaHash_canonical hr.coherent hx
  rw [hr.options_eq] at hhash
  exact Arena.fault?_eq_none_iff.2 ⟨_, hhash⟩

/-- The classes are those that there were, without the members that were
folded. -/
theorem classes_canonicals (h : r.Keeps g) (hr : Reachable o r) :
    ((Registry.new a o).submitAll (g.classes.map (·.canonical))).2.draft.classes =
      r.draft.classes.map fun c => { c with members := #[c.canonical] } := by
  have hs := h.submitAll_canonicals hr List.prefix_rfl
  have hs' : Reachable o ((Registry.new a o).submitAll (g.classes.map (·.canonical))).2 :=
    Reachable.new.submissions _
  rw [hs.classes_eq, Ledger.classes_ofClasses, hs'.options_eq, h.classes_eq, hr.options_eq,
    List.map_toArray, List.map_map]
  congr 1
  exact List.map_congr_left fun x hx => Ledger.sharingClass_ofClasses h.kept.nodup_classes hx

end Keeps

end Registry

/-! ## Units -/

open Registry

/-- **Sharing again changes nothing.** If the canonical lambdas of the plan of
a unit are shared by themselves, in the order of their classes, none of them is
refused and none is folded, and the classes are the same, with the same
numbers, fingerprints and methods, except that each has its canonical lambda as
its only member. -/
theorem deduplicate_canonicals (u : CompilationUnit) (o : Options) :
    let p := (u.deduplicate o).plan
    let again := (CompilationUnit.mk u.arena (p.classes.toList.map (·.canonical))).deduplicate o
    again.failures = [] ∧ again.plan.deduplicated = [] ∧ again.plan.stats.deduplicated = 0 ∧
      again.plan.classes = p.classes.map fun c => { c with members := #[c.canonical] } := by
  intro p again
  have hr : Reachable o ((new u.arena o).submitAll u.lambdas).2 :=
    Reachable.new.submissions u.lambdas
  obtain ⟨g, h⟩ := hr.keeps
  have hs := h.submitAll_canonicals hr List.prefix_rfl
  have hp : p = ((new u.arena o).submitAll u.lambdas).2.draft := u.plan_deduplicate o
  have hcanonicals : p.classes.toList.map (·.canonical) = g.classes.map (·.canonical) := by
    rw [hp, h.classes_eq, List.map_map]
    rfl
  have hagain : again = CompilationUnit.deduplicate ⟨u.arena, g.classes.map (·.canonical)⟩ o := by
    rw [← hcanonicals]
  have hplan : again.plan = ((new u.arena o).submitAll (g.classes.map (·.canonical))).2.draft := by
    rw [hagain, CompilationUnit.plan_deduplicate]
  refine ⟨?_, ?_, ?_, ?_⟩
  · rw [hagain]
    exact h.failures_canonicals hr
  · rw [hplan, hs.deduplicated_eq, Ledger.foldings_ofClasses]
  · have hfolded := hs.toNat_deduplicated
    rw [Ledger.folded_ofClasses, ← hplan] at hfolded
    exact UInt64.toNat_inj.1 hfolded
  · rw [hplan, hp]
    exact h.classes_canonicals hr

end LambdaSharing
