import LambdaSharing.Proofs.Sharing.Ledger
import LambdaSharing.Proofs.Sharing.Requests

/-!
# A registry keeps its ledger

A registry changes its plan piece by piece: a class is put behind the others
or gets one more member, a call site and a note are added, an assignment is
made, a count is raised. That the pieces fit together is not said by relating
each to each. Instead all of them are held against one thing. The answers of
a run amount to a ledger (`Ledger.recordAll`), and the plan that the registry
has come to is the plan of this ledger, apart from what searches have left in
it (`Registry.Keeps.run`). Buckets and ordinals, which are not in the plan,
are those of the classes in the ledger.

Nothing here depends on which class is found for a lambda, as long as it is
one of those that are there. So it is all true of a registry that is told not
to share classes, too.
-/

namespace LambdaSharing

attribute [ext] Stats Plan

/-- A plan without what only the searches for classes have left in it. -/
def Plan.withoutSearch (p : Plan) : Plan :=
  { p with stats := { p.stats with comparisons := 0, collisions := 0 }, traces := #[] }

namespace Ledger

variable {g : Ledger} {l m : LambdaId} {x y : Reference} {a : Arena} {o : Options}
  {p : Plan} {search : Search} {hash : UInt64}

/-- A class is found in the plan under its number. -/
theorem class?_plan (h : g.Kept) (hx : x ∈ g.classes) :
    (g.plan a o).class? x.classId = some (g.sharingClass a o x) := by
  show (g.classes.map (g.sharingClass a o)).toArray[x.classId.index.toNat]? = _
  rw [List.getElem?_toArray, List.getElem?_map, h.getElem?_classes hx, Option.map_some]

/-- The next class gets the number that is next in the ledger. -/
theorem nextClass_of_withoutSearch (hp : p.withoutSearch = g.plan a o) :
    p.nextClass = g.nextClass := by
  have hclasses : p.classes = (g.classes.map (g.sharingClass a o)).toArray :=
    congrArg Plan.classes hp
  rw [Plan.nextClass, hclasses, List.size_toArray, List.length_map, nextClass]

/-- What is found under a number is the class of that number. -/
theorem class?_plan_eq_some_iff (h : g.Kept) {id : ClassId} {c : SharingClass} :
    (g.plan a o).class? id = some c ↔
      ∃ x ∈ g.classes, x.classId = id ∧ g.sharingClass a o x = c := by
  constructor
  · intro hc
    have hc : (g.classes.map (g.sharingClass a o)).toArray[id.index.toNat]? = some c := hc
    rw [List.getElem?_toArray, List.getElem?_map, Option.map_eq_some_iff] at hc
    obtain ⟨x, hx, hc⟩ := hc
    exact ⟨x, List.mem_of_getElem? hx, ClassId.toNat_index_inj (h.toNat_classId hx), hc⟩
  · rintro ⟨x, hx, rfl, rfl⟩
    exact class?_plan h hx

/-- An accepted lambda is found in the plan where it was entered. -/
theorem canonical?_plan (h : g.Kept) : (g.plan a o).canonical? l = g.reference? l := by
  unfold Plan.canonical?
  rw [show (g.plan a o).assignments[l]? = _ from getElem?_assignments h]
  cases hx : g.reference? l with
  | none => rfl
  | some x =>
    have hclass := class?_plan (a := a) (o := o) h (h.mem_classes (h.reference?_eq_some_iff.1 hx))
    simp only [Option.map_some, Option.bind_eq_bind, Option.bind_some, hclass]
    rfl

/-- The members of a class are those from before, and the new lambda if it
joins this class. -/
theorem sharingClass_add (hy : y ∈ g.classes) :
    (g.add l x).sharingClass a o y =
      { g.sharingClass a o y with
        members := if x = y then (g.members y).toArray.push l else (g.members y).toArray } := by
  unfold sharingClass
  rw [method_add hy, members_add, SharingClass.mk.injEq]
  refine ⟨rfl, rfl, ?_, rfl, rfl⟩
  by_cases h : x = y
  · rw [if_pos h, if_pos h, List.push_toArray]
  · rw [if_neg h, if_neg h, List.append_nil]

/-- When a lambda joins a class, the class gets one more member. -/
theorem classes_plan_join (h : g.Kept) (hnew : l ∉ g.lambdas) (hx : x ∈ g.classes) :
    ((g.add l x).plan a o).classes =
      (g.plan a o).classes.modify x.classId.index.toNat
        fun c => { c with members := c.members.push l } := by
  refine Array.ext_getElem? fun i => ?_
  show ((g.add l x).classes.map ((g.add l x).sharingClass a o)).toArray[i]? =
    ((g.classes.map (g.sharingClass a o)).toArray.modify _ _)[i]?
  rw [classes_join hnew hx, Array.getElem?_modify, List.getElem?_toArray, List.getElem?_toArray,
    List.getElem?_map, List.getElem?_map]
  cases hy : g.classes[i]? with
  | none => simp
  | some y =>
    have hmem := List.mem_of_getElem? hy
    have hplace := h.toNat_classId hy
    rw [Option.map_some, sharingClass_add hmem]
    by_cases hxy : x = y
    · rw [if_pos hxy, if_pos (hxy ▸ hplace)]
      rfl
    · have hne : x.classId.index.toNat ≠ i := fun heq =>
        hxy (h.classId_inj hx hmem (ClassId.toNat_index_inj (heq.trans hplace.symm)))
      rw [if_neg hxy, if_neg hne]
      rfl

/-- When a lambda starts a class, it comes behind all others. -/
theorem classes_plan_start (hnew : l ∉ g.lambdas) {id : ClassId} :
    ((g.add l ⟨id, l⟩).plan a o).classes =
      (g.plan a o).classes.push ((g.add l ⟨id, l⟩).sharingClass a o ⟨id, l⟩) := by
  have hold : g.classes.map ((g.add l ⟨id, l⟩).sharingClass a o) =
      g.classes.map (g.sharingClass a o) := by
    refine List.map_congr_left fun y hy => ?_
    have hne : (⟨id, l⟩ : Reference) ≠ y := fun heq => canonical_ne hnew (heq ▸ hy) rfl
    rw [sharingClass_add hy, if_neg hne]
    rfl
  show ((g.add l ⟨id, l⟩).classes.map ((g.add l ⟨id, l⟩).sharingClass a o)).toArray = _
  rw [classes_start, List.map_append, hold, List.map_singleton, ← List.push_toArray]
  rfl

/-- A lambda that joins a class is counted as folded. -/
theorem stats_join (hnew : l ∉ g.lambdas) (hx : x ∈ g.classes) :
    ((g.add l x).plan a o).stats =
      { (g.plan a o).stats with
        submitted := (g.plan a o).stats.submitted + 1
        deduplicated := (g.plan a o).stats.deduplicated + 1 } := by
  apply Stats.ext
  · show UInt64.ofNat (g.add l x).entries.length = UInt64.ofNat g.entries.length + 1
    rw [length_add, UInt64.ofNat_add]
    rfl
  · show UInt64.ofNat (g.add l x).classes.length = UInt64.ofNat g.classes.length
    rw [classes_join hnew hx]
  · show UInt64.ofNat (g.add l x).folded = UInt64.ofNat g.folded + 1
    rw [folded_join hnew hx, UInt64.ofNat_add]
    rfl
  · rfl
  · rfl

/-- A lambda that starts a class is counted with the classes. -/
theorem stats_start {id : ClassId} :
    ((g.add l ⟨id, l⟩).plan a o).stats =
      { (g.plan a o).stats with
        submitted := (g.plan a o).stats.submitted + 1
        classes := (g.plan a o).stats.classes + 1 } := by
  apply Stats.ext
  · show UInt64.ofNat (g.add l _).entries.length = UInt64.ofNat g.entries.length + 1
    rw [length_add, UInt64.ofNat_add]
    rfl
  · show UInt64.ofNat (g.add l _).classes.length = UInt64.ofNat g.classes.length + 1
    rw [classes_start, List.length_append, List.length_singleton, UInt64.ofNat_add]
    rfl
  · show UInt64.ofNat (g.add l _).folded = UInt64.ofNat g.folded
    rw [folded_start]
  · rfl
  · rfl

/-- **Folding a lambda into a class enters it under that class.** -/
theorem withoutSearch_fold (h : g.Kept) (hnew : l ∉ g.lambdas) (hx : x ∈ g.classes)
    (hp : p.withoutSearch = g.plan a o) (search : Search) :
    ((p.count search).fold o.reports l (a.capturedVars l) x.classId
      (g.sharingClass a o x)).withoutSearch = (g.add l x).plan a o := by
  have hother := canonical_ne hnew hx
  apply Plan.ext
  · rw [classes_plan_join h hnew hx, ← hp]
    rfl
  · rw [callSites_add h, ← hp, site, method_add hx]
    rfl
  · show p.assignments.insert l x.classId = (g.add l x).assignments
    rw [assignments_add, show p.assignments = g.assignments from congrArg Plan.assignments hp]
  · rw [notes_add h, ← hp, note?, if_neg hother, method_add hx]
    cases hreport : o.reports.folded with
    | true => simp [Plan.withoutSearch, Plan.fold, Plan.count, hreport, sharingClass]
    | false => simp [Plan.withoutSearch, Plan.fold, Plan.count, hreport]
  · rw [stats_join hnew hx, ← hp]
    rfl
  · rfl

/-- **Starting a class with a lambda enters it under that class.** -/
theorem withoutSearch_create (h : g.Kept) (hnew : l ∉ g.lambdas)
    (hhash : a.lambdaHash o.maxDepth l = .ok hash) (hp : p.withoutSearch = g.plan a o)
    (search : Search) :
    ((p.count search).create o.reports l (a.capturedVars l) hash
      ⟨a.owner l, g.ordinal a (a.owner l)⟩).withoutSearch =
        (g.add l ⟨g.nextClass, l⟩).plan a o := by
  have hnext : (p.count search).nextClass = g.nextClass :=
    nextClass_of_withoutSearch (p := p) hp
  unfold Plan.create
  rw [hnext]
  apply Plan.ext
  · rw [classes_plan_start hnew, ← hp, sharingClass, method_start hnew, members_add,
      h.members_start hnew, if_pos rfl, hhash]
    rfl
  · rw [callSites_add h, ← hp, site, method_start hnew]
    rfl
  · show p.assignments.insert l g.nextClass = (g.add l _).assignments
    rw [assignments_add, show p.assignments = g.assignments from congrArg Plan.assignments hp]
  · rw [notes_add h, ← hp, note?, if_pos rfl, method_start hnew]
    cases hreport : o.reports.methods with
    | true => simp [Plan.withoutSearch, Plan.count]
    | false => simp [Plan.withoutSearch, Plan.count]
  · rw [stats_start, ← hp]
    rfl
  · rfl

/-! ## Counting comparisons -/

/-- **Comparisons are counted as they should be**: one for each folded lambda,
which found no divergence, and the collisions. The counts have 64 bits, which
suffices because a search makes fewer comparisons than there are numbers for
classes. -/
def Counts (g : Ledger) (s : Stats) : Prop :=
  ∃ collisions, s.collisions = UInt64.ofNat collisions ∧
    s.comparisons = UInt64.ofNat (collisions + g.folded) ∧
      collisions + g.folded ≤ g.entries.length * (UInt32.size - 1)

/-- One more search is counted, which found a class if and only if the lambda
is folded. -/
theorem Counts.count (h : g.Counts p.stats)
    (hfolded : search.comparisons + g.folded = search.collisions + (g.add l x).folded)
    (hlt : search.comparisons < UInt32.size) : (g.add l x).Counts (p.count search).stats := by
  obtain ⟨collisions, hcollisions, hcomparisons, hle⟩ := h
  refine ⟨collisions + search.collisions, ?_, ?_, ?_⟩
  · show p.stats.collisions + _ = _
    rw [hcollisions, UInt64.ofNat_add]
  · show p.stats.comparisons + _ = _
    rw [hcomparisons, ← UInt64.ofNat_add, Nat.add_assoc, Nat.add_assoc, ← hfolded,
      Nat.add_comm g.folded]
  · rw [length_add, Nat.succ_mul, Nat.add_assoc, ← hfolded]
    omega

/-! ## Entering answers -/

/-- Enter the lambda that an answer accepts, unless it was accepted before. -/
def record (g : Ledger) : Request → Answer → Ledger
  | .submit l, .reference x => if l ∈ g.lambdas then g else g.add l x
  | _, _ => g

/-- **The ledger that answers to requests amount to**, from a given one on. -/
def recordAll (g : Ledger) (requests : List Request) (answers : List Answer) : Ledger :=
  (requests.zip answers).foldl (fun g (q, x) => g.record q x) g

theorem recordAll_cons {q : Request} {x : Answer} {requests : List Request}
    {answers : List Answer} :
    g.recordAll (q :: requests) (x :: answers) = (g.record q x).recordAll requests answers := rfl

/-- Entering an answer adds what it accepts to what was accepted. -/
theorem lambdas_record {history : List LambdaId} (h : history.eraseDups = g.lambdas) (q : Request)
    (x : Answer) : (history ++ (q.accepted? x).toList).eraseDups = (g.record q x).lambdas := by
  rw [List.eraseDups_append, h]
  cases q with
  | finalize => exact List.append_nil _
  | submit l =>
    cases x with
    | plan p => exact List.append_nil _
    | refusal e => exact List.append_nil _
    | reference x =>
      have hmem : l ∈ g.lambdas ↔ history.contains l = true := by
        rw [← h, List.mem_eraseDups, List.contains_iff_mem]
      show g.lambdas ++ ([l].removeAll history).eraseDups = (if _ then _ else _ : Ledger).lambdas
      rw [List.cons_removeAll]
      by_cases hl : l ∈ g.lambdas
      · rw [if_pos hl, if_neg (by rw [hmem.1 hl]; exact Bool.noConfusion)]
        exact List.append_nil _
      · rw [if_neg hl, if_pos (Bool.not_eq_true _ ▸ mt hmem.2 hl), lambdas_add]
        rfl

/-- **The lambdas in the ledger of a run are those that it accepts.** -/
theorem lambdas_recordAll (history : List LambdaId) (h : history.eraseDups = g.lambdas)
    (requests : List Request) (answers : List Answer) :
    (history ++ acceptances requests answers).eraseDups =
      (g.recordAll requests answers).lambdas := by
  induction requests generalizing g history answers with
  | nil => rw [show acceptances [] answers = [] from rfl, List.append_nil, h]; rfl
  | cons q rest ih =>
    cases answers with
    | nil => rw [show acceptances (q :: rest) [] = [] from rfl, List.append_nil, h]; rfl
    | cons x answers =>
      rw [acceptances_cons, recordAll_cons, ← List.append_assoc]
      exact ih _ (lambdas_record h q x) answers

end Ledger

namespace Registry

variable {a : Arena} {r : Registry a} {g : Ledger} {l : LambdaId} {e : Examination}

/-! ## Lambdas that were examined -/

/-- What passed its examination is registered, as the lambda that was found. -/
theorem lambda?_of_examine (he : r.examine l = .ok e) : a.lambda? l = some e.lambda := by
  obtain ⟨⟨s, hs, hlambda⟩, -, -⟩ := examine_eq_ok_iff.1 he
  obtain ⟨lambda, hlambda', rfl⟩ := Arena.scope_eq_ok_iff.1 hs
  rw [hlambda', hlambda]

theorem capturedVars_of_examine (he : r.examine l = .ok e) :
    e.lambda.captures.map (·.var) = a.capturedVars l := by
  rw [Arena.capturedVars, lambda?_of_examine he]
  rfl

theorem owner_of_examine (he : r.examine l = .ok e) : e.lambda.owner = a.owner l := by
  rw [Arena.owner, lambda?_of_examine he]
  rfl

/-! ## Registries and their ledgers -/

/-- **A registry keeps a ledger** if, apart from searches, its plan is that of
the ledger, and its buckets and ordinals are those of the classes in it. -/
structure Keeps (r : Registry a) (g : Ledger) : Prop where
  kept : g.Kept
  plan : r.draft.withoutSearch = g.plan a r.options
  /-- A bucket holds the classes with the fingerprint, in order of creation. -/
  bucket : ∀ hash, r.bucket hash =
    (g.classes.filter fun x => a.lambdaHash r.options.maxDepth x.canonical = .ok hash).map
      (·.classId)
  ordinal : ∀ owner, r.ordinals.getD owner 0 = g.ordinal a owner
  counted : g.Counts r.draft.stats

namespace Keeps

/-- The ledger of a new registry is empty. -/
theorem new (a : Arena) (o : Options) : (Registry.new a o).Keeps {} where
  kept := .empty
  plan := rfl
  bucket _ := Std.ExtTreeMap.getD_empty
  ordinal _ := Std.ExtTreeMap.getD_empty
  counted := ⟨0, rfl, rfl, Nat.zero_le _⟩

/-- A registry says of a lambda what its ledger says. -/
theorem canonical?_eq (h : r.Keeps g) : r.canonical? l = g.reference? l := by
  rw [← Ledger.canonical?_plan (a := a) (o := r.options) h.kept, ← h.plan]
  rfl

/-- The class with a number is the one that the ledger has under it. -/
theorem class?_eq_some_iff (h : r.Keeps g) {id : ClassId} {c : SharingClass} :
    r.draft.class? id = some c ↔
      ∃ x ∈ g.classes, x.classId = id ∧ g.sharingClass a r.options x = c := by
  rw [← Ledger.class?_plan_eq_some_iff h.kept, ← h.plan]
  rfl

/-- The leader of a class is the lambda that started it. -/
theorem leader?_eq (h : r.Keeps g) {x : Reference} (hx : x ∈ g.classes) :
    r.draft.leader? x.classId = some (x.canonical, (g.sharingClass a r.options x).hash) :=
  Plan.leader?_eq_some_iff.2 ⟨_, h.class?_eq_some_iff.2 ⟨x, hx, rfl, rfl⟩, rfl, rfl⟩

/-- A class that is found is one of the ledger. -/
theorem found (h : r.Keeps g) (he : r.examine l = .ok e) {id : ClassId} {c : SharingClass}
    (hfound : e.search.found = some (id, c)) :
    (⟨id, c.canonical⟩ : Reference) ∈ g.classes ∧
      g.sharingClass a r.options ⟨id, c.canonical⟩ = c := by
  obtain ⟨_, -, hsearch⟩ := exists_searchAmong_of_examine he
  have hclass := (equivalent_of_searchAmong hsearch hfound).1
  obtain ⟨x, hx, rfl, rfl⟩ := h.class?_eq_some_iff.1 hclass
  exact ⟨hx, rfl⟩

/-- The search for a new lambda makes fewer comparisons than there are numbers
for classes. -/
theorem comparisons_lt (h : r.Keeps g) (hnew : l ∉ g.lambdas) (he : r.examine l = .ok e) :
    e.search.comparisons < UInt32.size := by
  have hbucket : (r.bucket e.hash).length ≤ g.classes.length := by
    rw [h.bucket, List.length_map]
    exact List.length_filter_le _ _
  exact Nat.lt_of_le_of_lt (Nat.le_trans (comparisons_of_examine he).2 hbucket)
    (h.kept.length_classes_lt hnew)

/-- A lambda whose class was found is entered under it. -/
theorem accept_found (h : r.Keeps g) (hnew : l ∉ g.lambdas) (he : r.examine l = .ok e)
    {id : ClassId} {c : SharingClass} (hfound : e.search.found = some (id, c)) :
    (r.accept l e).2.Keeps (g.add l ⟨id, c.canonical⟩) := by
  obtain ⟨hx, hc⟩ := h.found he hfound
  have hclasses := Ledger.classes_join hnew hx
  rw [accept_of_found hfound, capturedVars_of_examine he]
  refine ⟨h.kept.join hnew hx, ?_, ?_, ?_, ?_⟩
  · have hfold := Ledger.withoutSearch_fold h.kept hnew hx h.plan e.search
    rwa [hc] at hfold
  · intro hash
    rw [hclasses]
    exact h.bucket hash
  · intro owner
    rw [Ledger.ordinal_join hnew hx]
    exact h.ordinal owner
  · refine h.counted.count ?_ (h.comparisons_lt hnew he)
    rw [(comparisons_of_examine he).1, hfound, Ledger.folded_join hnew hx]
    exact Nat.add_right_comm _ _ _

/-- A lambda whose class was not found is entered under a class that it
starts. -/
theorem accept_none (h : r.Keeps g) (hnew : l ∉ g.lambdas) (he : r.examine l = .ok e)
    (hfound : e.search.found = none) :
    (r.accept l e).2.Keeps (g.add l ⟨g.nextClass, l⟩) := by
  have hhash := (examine_eq_ok_iff.1 he).2.1
  have howner := owner_of_examine he
  have hnext := Ledger.nextClass_of_withoutSearch h.plan
  refine ⟨h.kept.start hnew, ?_, ?_, ?_, ?_⟩
  · rw [accept_of_none hfound, capturedVars_of_examine he, howner, h.ordinal]
    exact Ledger.withoutSearch_create h.kept hnew hhash h.plan e.search
  · intro hash
    rw [bucket_accept_of_none hfound, hnext, options_accept, Ledger.classes_start,
      List.filter_append, List.map_append, h.bucket]
    by_cases heq : hash = e.hash
    · rw [if_pos heq, List.filter_cons_of_pos (by rw [hhash, heq, decide_eq_true rfl])]
      rfl
    · have hother : Except.ok e.hash ≠ (Except.ok hash : Except Fault UInt64) := fun hsame =>
        heq (Except.ok.inj hsame).symm
      rw [if_neg heq, List.filter_cons_of_neg (by rw [hhash, decide_eq_true_iff]; exact hother)]
      exact (List.append_nil _).symm
  · intro owner
    rw [accept_of_none hfound, Ledger.ordinal_start, ← h.ordinal]
    show (r.ordinals.insert e.lambda.owner _).getD owner 0 = _
    rw [Std.ExtTreeMap.getD_insert, howner]
    simp only [Std.compare_eq_iff_eq]
    by_cases heq : a.owner l = owner
    · rw [if_pos heq, if_pos heq, heq]
    · rw [if_neg heq, if_neg heq]
  · rw [accept_of_none hfound]
    refine h.counted.count ?_ (h.comparisons_lt hnew he)
    rw [(comparisons_of_examine he).1, hfound, Ledger.folded_start]
    rfl

/-- **What a registry accepts it enters in its ledger.** -/
theorem accept (h : r.Keeps g) (hnew : l ∉ g.lambdas) (he : r.examine l = .ok e) :
    (r.accept l e).2.Keeps (g.add l (r.accept l e).1) := by
  cases hfound : e.search.found with
  | some found =>
    rw [reference_accept_of_found hfound]
    exact h.accept_found hnew he hfound
  | none =>
    rw [reference_accept_of_none hfound, Ledger.nextClass_of_withoutSearch h.plan]
    exact h.accept_none hnew he hfound

/-- A lambda that the registry knows is in its ledger. -/
theorem mem_lambdas (h : r.Keeps g) {x : Reference} (hx : r.canonical? l = some x) :
    l ∈ g.lambdas := by
  rw [h.canonical?_eq, h.kept.reference?_eq_some_iff] at hx
  exact List.mem_map.2 ⟨_, hx, rfl⟩

/-- A lambda that the registry does not know is not in its ledger. -/
theorem notMem_lambdas (h : r.Keeps g) (hnew : r.canonical? l = none) : l ∉ g.lambdas := by
  rwa [h.canonical?_eq, h.kept.reference?_eq_none_iff] at hnew

/-- **What a registry answers it enters in its ledger.** -/
theorem answer (h : r.Keeps g) (q : Request) :
    (r.answer q).2.Keeps (g.record q (r.answer q).1) := by
  cases q with
  | finalize =>
    show r.finalize.2.Keeps g
    rw [finalize_snd]
    exact ⟨h.kept, h.plan, h.bucket, h.ordinal, h.counted⟩
  | submit l =>
    show (r.submit l).2.Keeps (g.record (.submit l) (.ofReference (r.submit l).1))
    rcases submit_cases r l with ⟨refusal, heq⟩ | ⟨x, hx, heq⟩ | ⟨e, -, hnew, he, heq⟩
    · rw [heq]
      exact h
    · rw [heq, Answer.ofReference, Ledger.record, if_pos (h.mem_lambdas hx)]
      exact h
    · have hnew := h.notMem_lambdas hnew
      rw [heq, Answer.ofReference, Ledger.record, if_neg hnew]
      exact h.accept hnew he

/-- **After a run, a registry keeps the ledger of what it answered.** -/
theorem run (h : r.Keeps g) (requests : List Request) :
    (r.run requests).2.Keeps (g.recordAll requests (r.run requests).1) := by
  induction requests generalizing r g with
  | nil => exact h
  | cons q rest ih =>
    rw [run_cons, Ledger.recordAll_cons]
    exact ih (h.answer q)

end Keeps

/-- **Whatever was requested of it, a registry keeps a ledger.** -/
theorem Reachable.keeps {o : Options} (h : Reachable o r) : ∃ g, r.Keeps g := by
  induction h with
  | new => exact ⟨{}, .new a o⟩
  | @submit r _ l ih =>
    obtain ⟨g, hg⟩ := ih
    exact ⟨_, hg.answer (.submit l)⟩
  | finalize _ ih =>
    obtain ⟨g, hg⟩ := ih
    exact ⟨_, hg.answer .finalize⟩

end Registry

end LambdaSharing
