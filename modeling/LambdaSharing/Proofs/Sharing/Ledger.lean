import LambdaSharing.Proofs.Sharing.Coherence

/-!
# Ledgers

A registry keeps the same few facts in many places: in its classes, in the
members of each, in the call sites, in a table of assignments, in buckets,
ordinals, notes and counts. All of it follows from what the registry has
answered. A `Ledger` is the list of the accepted lambdas in order of
acceptance, each with the reference that it was answered with, and
`Ledger.plan` is the plan that this amounts to. Which classes were searched
for a lambda, and what it was compared with, is the only thing in a plan that
a ledger does not know.

Not every list of references makes sense. In a ledger that is *kept*
(`Ledger.Kept`) every lambda is entered once, and the reference it is entered
with names a class that was started before, or one that the lambda starts
itself. The lemmas say what the parts of the plan of a ledger come to when
one more lambda is entered, in either of these ways.
-/

namespace LambdaSharing

/-- In a table without repeated keys, what is found is what is listed. -/
theorem lookup_eq_some_iff_mem {α β : Type} [DecidableEq α] {table : List (α × β)} {key : α}
    {value : β} (h : (table.map Prod.fst).Nodup) :
    table.lookup key = some value ↔ (key, value) ∈ table := by
  rw [List.lookup_eq_some_iff]
  constructor
  · rintro ⟨before, after, heq, -⟩
    rw [heq]
    exact List.mem_append_right before List.mem_cons_self
  · intro he
    obtain ⟨before, after, heq⟩ := List.mem_iff_append.1 he
    refine ⟨before, after, heq, ?_⟩
    rw [heq, List.map_append, List.map_cons, List.nodup_middle] at h
    intro e hbefore
    rw [bne_iff_ne]
    intro hsame
    have hkey : key ∈ before.map Prod.fst := List.mem_map.2 ⟨e, hbefore, hsame.symm⟩
    exact (List.nodup_cons.1 h).1 (List.mem_append_left _ hkey)

/-- The lambdas that were accepted, with what was answered. -/
structure Ledger where
  /-- The accepted lambdas in order, each with where it ended up. -/
  entries : List (LambdaId × Reference) := []

/-- The method that encloses a lambda. -/
def Arena.owner (a : Arena) (l : LambdaId) : Name :=
  ((a.lambda? l).map (·.owner)).getD .empty

/-- The variables that a lambda captures, in order. -/
def Arena.capturedVars (a : Arena) (l : LambdaId) : List SymbolId :=
  ((a.lambda? l).map fun lambda => lambda.captures.map (·.var)).getD []

namespace Ledger

/-- Enter one more lambda. -/
def add (g : Ledger) (l : LambdaId) (x : Reference) : Ledger := ⟨g.entries ++ [(l, x)]⟩

/-- The accepted lambdas, in order. -/
def lambdas (g : Ledger) : List LambdaId := g.entries.map Prod.fst

/-- Where an accepted lambda ended up. -/
def reference? (g : Ledger) (l : LambdaId) : Option Reference := g.entries.lookup l

/-- The references to the classes, in order of creation. A lambda has started
a class if it was referred to itself. -/
def classes (g : Ledger) : List Reference :=
  (g.entries.filter fun e => e.2.canonical = e.1).map Prod.snd

/-- The number of the next class. -/
def nextClass (g : Ledger) : ClassId := ⟨UInt32.ofNat g.classes.length⟩

/-- The members of a class, in order of acceptance. -/
def members (g : Ledger) (x : Reference) : List LambdaId :=
  (g.entries.filter fun e => e.2 = x).map Prod.fst

/-- How many lambdas joined a class that another one had started. -/
def folded (g : Ledger) : Nat := g.entries.countP fun e => e.2.canonical ≠ e.1

/-- The number of the class of every lambda. -/
def assignments (g : Ledger) : Std.ExtTreeMap LambdaId ClassId :=
  g.entries.foldl (fun table e => table.insert e.1 e.2.classId) ∅

/-! ## The plan of a ledger -/

section Plan

variable (g : Ledger) (a : Arena) (o : Options)

/-- The next ordinal of an owner: how many classes it has. -/
def ordinal (owner : Name) : UInt32 :=
  UInt32.ofNat (g.classes.countP fun x => a.owner x.canonical = owner)

/-- The method of a class: how many classes of its owner were there before. -/
def method (x : Reference) : Method :=
  ⟨a.owner x.canonical, UInt32.ofNat
    ((g.classes.takeWhile (· ≠ x)).countP fun y => a.owner y.canonical = a.owner x.canonical)⟩

/-- A class, with the fingerprint of its first lambda. -/
def sharingClass (x : Reference) : SharingClass where
  id := x.classId
  canonical := x.canonical
  members := (g.members x).toArray
  hash := (a.lambdaHash o.maxDepth x.canonical).toOption.getD 0
  method := g.method a x

/-- The call site of an accepted lambda. -/
def site (e : LambdaId × Reference) : CallSite where
  lambda := e.1
  classId := e.2.classId
  method := g.method a e.2
  captures := a.capturedVars e.1

/-- The note on an accepted lambda, if one is to be made. -/
def note? (e : LambdaId × Reference) : Option Note :=
  if e.2.canonical = e.1 then
    if o.reports.methods then some (.implemented e.1 (g.method a e.2)) else none
  else
    if o.reports.folded then some (.folded e.1 e.2.canonical (g.method a e.2)) else none

/-- **The plan of a ledger**, without any searches. -/
def plan : Plan where
  classes := (g.classes.map (g.sharingClass a o)).toArray
  callSites := (g.entries.map (g.site a)).toArray
  assignments := g.assignments
  notes := (g.entries.filterMap (g.note? a o)).toArray
  stats :=
    { submitted := UInt64.ofNat g.entries.length
      classes := UInt64.ofNat g.classes.length
      deduplicated := UInt64.ofNat g.folded }

end Plan

/-! ## Ledgers that are kept -/

/-- A ledger as it comes about when lambdas are entered one by one. -/
inductive Kept : Ledger → Prop where
  | empty : Kept {}
  /-- A lambda joins a class that is there. -/
  | join {g : Ledger} {l : LambdaId} {x : Reference} (h : Kept g) (hnew : l ∉ g.lambdas)
    (hx : x ∈ g.classes) : Kept (g.add l x)
  /-- A lambda starts a class. -/
  | start {g : Ledger} {l : LambdaId} (h : Kept g) (hnew : l ∉ g.lambdas) :
    Kept (g.add l ⟨g.nextClass, l⟩)

variable {g : Ledger} {l m : LambdaId} {x y : Reference} {a : Arena} {o : Options}

/-! ### One more entry -/

@[simp] theorem length_add : (g.add l x).entries.length = g.entries.length + 1 :=
  List.length_append

@[simp] theorem lambdas_add : (g.add l x).lambdas = g.lambdas ++ [l] := List.map_append

/-- One more entry is listed behind the others, where it is listed at all. -/
theorem map_filter_concat {α β : Type} {p : α → Bool} {f : α → β} {es : List α} {e : α} :
    ((es ++ [e]).filter p).map f = (es.filter p).map f ++ if p e then [f e] else [] := by
  rw [List.filter_append, List.map_append]
  by_cases h : p e = true
  · rw [if_pos h, List.filter_cons_of_pos h]
    rfl
  · rw [if_neg h, List.filter_cons_of_neg h]
    rfl

theorem members_add :
    (g.add l x).members y = g.members y ++ if x = y then [l] else [] := by
  unfold members add
  rw [map_filter_concat]
  simp only [decide_eq_true_eq]

/-- A class is one that its canonical lambda was entered with. -/
theorem mem_classes_iff : x ∈ g.classes ↔ (x.canonical, x) ∈ g.entries := by
  unfold classes
  rw [List.mem_map]
  constructor
  · rintro ⟨⟨l, y⟩, he, rfl⟩
    obtain ⟨he, hself⟩ := List.mem_filter.1 he
    have hself : y.canonical = l := of_decide_eq_true hself
    rwa [← hself] at he
  · intro he
    exact ⟨_, List.mem_filter.2 ⟨he, decide_eq_true rfl⟩, rfl⟩

/-- A class has been entered under a lambda. -/
theorem canonical_mem_lambdas (hx : x ∈ g.classes) : x.canonical ∈ g.lambdas :=
  List.mem_map.2 ⟨_, mem_classes_iff.1 hx, rfl⟩

theorem mem_members_iff : l ∈ g.members x ↔ (l, x) ∈ g.entries := by
  unfold members
  rw [List.mem_map]
  constructor
  · rintro ⟨⟨m, y⟩, he, rfl⟩
    obtain ⟨he, hclass⟩ := List.mem_filter.1 he
    have hclass : y = x := of_decide_eq_true hclass
    rwa [hclass] at he
  · intro he
    exact ⟨_, List.mem_filter.2 ⟨he, decide_eq_true rfl⟩, rfl⟩

theorem classes_add :
    (g.add l x).classes = g.classes ++ if x.canonical = l then [x] else [] := by
  unfold classes add
  rw [map_filter_concat]
  simp only [decide_eq_true_eq]

/-- A new lambda is not the first one of a class that is there. -/
theorem canonical_ne (hnew : l ∉ g.lambdas) (hx : x ∈ g.classes) : x.canonical ≠ l := by
  rintro rfl
  exact hnew (canonical_mem_lambdas hx)

/-- Joining a class starts none. -/
theorem classes_join (hnew : l ∉ g.lambdas) (hx : x ∈ g.classes) :
    (g.add l x).classes = g.classes := by
  rw [classes_add, if_neg (canonical_ne hnew hx), List.append_nil]

/-- Starting a class adds one behind all others. -/
theorem classes_start {id : ClassId} :
    (g.add l ⟨id, l⟩).classes = g.classes ++ [⟨id, l⟩] := by
  rw [classes_add, if_pos rfl]

theorem ordinal_join (hnew : l ∉ g.lambdas) (hx : x ∈ g.classes) {owner : Name} :
    (g.add l x).ordinal a owner = g.ordinal a owner := by
  rw [ordinal, classes_join hnew hx, ordinal]

theorem ordinal_start {id : ClassId} {owner : Name} :
    (g.add l ⟨id, l⟩).ordinal a owner =
      if a.owner l = owner then g.ordinal a owner + 1 else g.ordinal a owner := by
  unfold ordinal
  rw [classes_start, List.countP_append, List.countP_singleton]
  simp only [decide_eq_true_eq]
  by_cases heq : a.owner l = owner
  · rw [if_pos heq, if_pos heq, UInt32.ofNat_add]
    rfl
  · rw [if_neg heq, if_neg heq, Nat.add_zero]

theorem folded_join (hnew : l ∉ g.lambdas) (hx : x ∈ g.classes) :
    (g.add l x).folded = g.folded + 1 := by
  unfold folded add
  rw [List.countP_append, List.countP_singleton,
    if_pos (decide_eq_true (canonical_ne hnew hx))]

theorem folded_start {id : ClassId} : (g.add l ⟨id, l⟩).folded = g.folded := by
  unfold folded add
  rw [List.countP_append, List.countP_singleton, if_neg (by simp), Nat.add_zero]

/-- A lambda starts a class or joins one. -/
theorem length_entries : g.entries.length = g.classes.length + g.folded := by
  rw [classes, List.length_map, ← List.countP_eq_length_filter, folded,
    List.length_eq_countP_add_countP fun e => decide (e.2.canonical = e.1)]
  simp only [decide_eq_true_eq]

/-! ### What holds of kept ledgers -/

namespace Kept

/-- A lambda is entered once. -/
theorem nodup (h : g.Kept) : g.lambdas.Nodup := by
  induction h with
  | empty => exact List.nodup_nil
  | join _ hnew _ ih | start _ hnew ih =>
    rw [lambdas_add, ← List.concat_eq_append]
    exact ih.concat hnew

/-- Every lambda is in a class that has been started. -/
theorem mem_classes (h : g.Kept) (he : (l, x) ∈ g.entries) : x ∈ g.classes := by
  induction h with
  | empty => cases he
  | join _ hnew hx ih =>
    rw [classes_join hnew hx]
    rcases List.mem_append.1 he with he | he
    · exact ih he
    · obtain ⟨rfl, rfl⟩ := Prod.mk.inj (List.mem_singleton.1 he)
      exact hx
  | start _ _ ih =>
    rw [classes_start]
    rcases List.mem_append.1 he with he | he
    · exact List.mem_append_left _ (ih he)
    · obtain ⟨rfl, rfl⟩ := Prod.mk.inj (List.mem_singleton.1 he)
      exact List.mem_append_right _ List.mem_cons_self

/-- There is a number left for the class of a new lambda. -/
theorem length_classes_lt (h : g.Kept) (hnew : l ∉ g.lambdas) :
    g.classes.length < UInt32.size := by
  have hlength := LambdaId.length_le_of_nodup (List.nodup_cons.2 ⟨hnew, h.nodup⟩)
  rw [List.length_cons, lambdas, List.length_map, length_entries] at hlength
  exact Nat.lt_of_le_of_lt (Nat.le_add_right _ _) hlength

/-- There are no more entries than lambdas. -/
theorem length_entries_le (h : g.Kept) : g.entries.length ≤ UInt32.size := by
  have hlength := LambdaId.length_le_of_nodup h.nodup
  rwa [lambdas, List.length_map] at hlength

/-- Comparisons can be counted with 64 bits: there are fewer for each entry than
there are numbers for classes. -/
theorem toNat_ofNat_of_le (h : g.Kept) {n : Nat}
    (hn : n ≤ g.entries.length * (UInt32.size - 1)) : (UInt64.ofNat n).toNat = n := by
  have hle := Nat.mul_le_mul_right (UInt32.size - 1) h.length_entries_le
  refine UInt64.toNat_ofNat_of_lt' ?_
  simp only [UInt64.size, UInt32.size] at *
  omega

/-- So can entries. -/
theorem toNat_ofNat (h : g.Kept) {n : Nat} (hn : n ≤ g.entries.length) :
    (UInt64.ofNat n).toNat = n :=
  h.toNat_ofNat_of_le (Nat.le_trans hn (Nat.le_mul_of_pos_right _ (by decide)))

/-- The number of a class is its place. -/
theorem toNat_classId (h : g.Kept) {i : Nat} (hx : g.classes[i]? = some x) :
    x.classId.index.toNat = i := by
  induction h generalizing i x with
  | empty => cases hx
  | join _ hnew hmem ih =>
    rw [classes_join hnew hmem] at hx
    exact ih hx
  | @start g l h hnew ih =>
    rw [classes_start, List.getElem?_append] at hx
    by_cases hi : i < g.classes.length
    · rw [if_pos hi] at hx
      exact ih hx
    · rw [if_neg hi, List.getElem?_singleton] at hx
      by_cases hlast : i - g.classes.length = 0
      · rw [if_pos hlast] at hx
        obtain rfl := Option.some.inj hx
        show (UInt32.ofNat g.classes.length).toNat = i
        rw [UInt32.toNat_ofNat_of_lt' (h.length_classes_lt hnew)]
        omega
      · rw [if_neg hlast] at hx
        cases hx

/-- Every class has a first lambda of its own. -/
theorem nodup_classes (h : g.Kept) : g.classes.Nodup := by
  have hcanonical : g.classes.map (·.canonical) =
      (g.entries.filter fun e => e.2.canonical = e.1).map Prod.fst := by
    rw [classes, List.map_map]
    exact List.map_congr_left fun e he => of_decide_eq_true (List.mem_filter.1 he).2
  refine List.Nodup.of_map (·.canonical) ?_
  rw [hcanonical]
  exact h.nodup.sublist (List.filter_sublist.map _)

/-- The lambda of an entry determines where it ended up. -/
theorem entry_unique (h : g.Kept) (hx : (l, x) ∈ g.entries) (hy : (l, y) ∈ g.entries) : x = y :=
  congrArg Prod.snd (List.inj_on_of_nodup_map h.nodup hx hy rfl)

/-- **Every lambda is a member of one class**, once. -/
theorem members_perm (h : g.Kept) : (g.classes.flatMap g.members).Perm g.lambdas := by
  have hnodup : (g.classes.flatMap g.members).Nodup := by
    refine List.nodup_flatMap.2 ⟨?_, ?_⟩
    · intro x _
      exact h.nodup.sublist (List.filter_sublist.map _)
    · refine h.nodup_classes.imp ?_
      intro x y hne l hx hy
      exact hne (h.entry_unique (mem_members_iff.1 hx) (mem_members_iff.1 hy))
  refine (List.perm_ext_iff_of_nodup hnodup h.nodup).2 fun l => ?_
  rw [List.mem_flatMap]
  constructor
  · rintro ⟨x, -, hl⟩
    exact List.mem_map.2 ⟨_, mem_members_iff.1 hl, rfl⟩
  · intro hl
    obtain ⟨⟨m, x⟩, he, rfl⟩ := List.mem_map.1 hl
    exact ⟨x, h.mem_classes he, mem_members_iff.2 he⟩

/-- What is found for a lambda is what it was entered with. -/
theorem reference?_eq_some_iff (h : g.Kept) : g.reference? l = some x ↔ (l, x) ∈ g.entries :=
  lookup_eq_some_iff_mem h.nodup

/-- Nothing is found for a lambda that was not entered. -/
theorem reference?_eq_none_iff (h : g.Kept) : g.reference? l = none ↔ l ∉ g.lambdas := by
  rw [Option.eq_none_iff_forall_ne_some]
  simp only [ne_eq, h.reference?_eq_some_iff, lambdas, List.mem_map, Prod.exists,
    exists_and_right, exists_eq_right, not_exists]

/-- The class with a number stands in its place. -/
theorem getElem?_classes (h : g.Kept) (hx : x ∈ g.classes) :
    g.classes[x.classId.index.toNat]? = some x := by
  obtain ⟨i, hi⟩ := List.mem_iff_getElem?.1 hx
  rwa [h.toNat_classId hi]

/-- A class number is that of one class. -/
theorem classId_inj (h : g.Kept) (hx : x ∈ g.classes) (hy : y ∈ g.classes)
    (heq : x.classId = y.classId) : x = y := by
  have hplace := h.getElem?_classes hx
  rw [heq, h.getElem?_classes hy] at hplace
  exact (Option.some.inj hplace).symm

/-- A class that a new lambda starts has no members yet. -/
theorem members_start (h : g.Kept) (hnew : l ∉ g.lambdas) {id : ClassId} :
    g.members ⟨id, l⟩ = [] := by
  rw [List.eq_nil_iff_forall_not_mem]
  intro m hm
  exact hnew (canonical_mem_lambdas (h.mem_classes (mem_members_iff.1 hm)))

/-- The first member of a class is its canonical lambda. -/
theorem head?_members (h : g.Kept) (hx : x ∈ g.classes) :
    (g.members x).head? = some x.canonical := by
  induction h with
  | empty => cases hx
  | join _ hnew hmem ih =>
    rw [classes_join hnew hmem] at hx
    rw [members_add, List.head?_append, ih hx, Option.some_or]
  | start h hnew ih =>
    rw [classes_start] at hx
    rw [members_add, List.head?_append]
    rcases List.mem_append.1 hx with hx | hx
    · rw [ih hx, Option.some_or]
    · obtain rfl := List.mem_singleton.1 hx
      rw [h.members_start hnew, if_pos rfl]
      rfl

end Kept

/-! ### The plan of one more entry -/

/-- The classes before one that is there do not change. -/
theorem takeWhile_classes_add (hy : y ∈ g.classes) :
    (g.add l x).classes.takeWhile (· ≠ y) = g.classes.takeWhile (· ≠ y) := by
  rw [classes_add, List.takeWhile_append, if_neg]
  intro hlength
  have hall : g.classes.takeWhile (· ≠ y) = g.classes :=
    (List.takeWhile_prefix _).eq_of_length hlength
  rw [← hall] at hy
  exact absurd rfl (of_decide_eq_true (List.all_eq_true.1 List.all_takeWhile y hy))

/-- The method of a class does not change. -/
theorem method_add (hy : y ∈ g.classes) : (g.add l x).method a y = g.method a y := by
  rw [method, takeWhile_classes_add hy, method]

/-- A class that is started takes the next ordinal of its owner. -/
theorem method_start (hnew : l ∉ g.lambdas) {id : ClassId} :
    (g.add l ⟨id, l⟩).method a ⟨id, l⟩ = ⟨a.owner l, g.ordinal a (a.owner l)⟩ := by
  have hbefore : ∀ y ∈ g.classes, decide (y ≠ ⟨id, l⟩) = true := by
    intro y hy
    refine decide_eq_true ?_
    rintro rfl
    exact canonical_ne hnew hy rfl
  rw [method, classes_start, List.takeWhile_append_of_pos hbefore]
  simp [ordinal]

/-- The call sites are those from before and the new one. -/
theorem callSites_add (h : g.Kept) :
    ((g.add l x).plan a o).callSites =
      (g.plan a o).callSites.push ((g.add l x).site a (l, x)) := by
  have hold : g.entries.map ((g.add l x).site a) = g.entries.map (g.site a) := by
    refine List.map_congr_left fun e he => ?_
    rw [site, method_add (h.mem_classes he), site]
  show ((g.entries ++ [(l, x)]).map ((g.add l x).site a)).toArray = _
  rw [List.map_append, hold, List.map_singleton, ← List.push_toArray]
  rfl

/-- The notes are those from before, and perhaps a new one. -/
theorem notes_add (h : g.Kept) :
    ((g.add l x).plan a o).notes =
      ((g.add l x).note? a o (l, x)).elim (g.plan a o).notes (g.plan a o).notes.push := by
  have hold : g.entries.filterMap ((g.add l x).note? a o) = g.entries.filterMap (g.note? a o) := by
    refine List.filterMap_congr fun e he => ?_
    rw [note?, method_add (h.mem_classes he), note?]
  show ((g.entries ++ [(l, x)]).filterMap ((g.add l x).note? a o)).toArray = _
  rw [List.filterMap_append, hold]
  cases hnote : (g.add l x).note? a o (l, x) with
  | none => rw [List.filterMap_cons_none hnote, List.filterMap_nil, List.append_nil]; rfl
  | some note =>
    rw [List.filterMap_cons_some hnote, List.filterMap_nil, ← List.push_toArray]
    rfl

/-- The table of assignments has one more entry. -/
theorem assignments_add : (g.add l x).assignments = g.assignments.insert l x.classId := by
  unfold assignments add
  rw [List.foldl_append]
  rfl

/-- A new lambda is found where it was entered, and all others where they
were. -/
theorem reference?_add (h : g.Kept) (hnew : l ∉ g.lambdas) :
    (g.add l x).reference? m = if m = l then some x else g.reference? m := by
  have hor : (g.add l x).reference? m = (g.reference? m).or ([(l, x)].lookup m) :=
    List.lookup_append
  rw [hor]
  by_cases hm : m = l
  · rw [if_pos hm, hm, h.reference?_eq_none_iff.2 hnew, Option.none_or, List.lookup_cons_self]
  · rw [if_neg hm, List.lookup_cons, beq_eq_false_iff_ne.2 hm, List.lookup_nil, Option.or_none]

/-- The class that is assigned to a lambda is the one it was entered with. -/
theorem getElem?_assignments (h : g.Kept) :
    g.assignments[m]? = (g.reference? m).map (·.classId) := by
  have hadd {g : Ledger} {l : LambdaId} {x : Reference} (h : g.Kept) (hnew : l ∉ g.lambdas)
      (ih : g.assignments[m]? = (g.reference? m).map (·.classId)) :
      (g.add l x).assignments[m]? = ((g.add l x).reference? m).map (·.classId) := by
    rw [assignments_add, Std.ExtTreeMap.getElem?_insert, ih, reference?_add h hnew]
    simp only [Std.compare_eq_iff_eq]
    by_cases hm : m = l
    · rw [if_pos hm.symm, if_pos hm, Option.map_some]
    · rw [if_neg (Ne.symm hm), if_neg hm]
  induction h with
  | empty => exact Std.ExtTreeMap.getElem?_empty
  | join h hnew _ ih => exact hadd h hnew ih
  | start h hnew ih => exact hadd h hnew ih

end Ledger

end LambdaSharing
