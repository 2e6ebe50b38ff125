import LambdaSharing.Proofs.Sharing.Requests
import LambdaSharing.Proofs.Walk.Simulation

/-!
# Names do not matter

Two units may be the same except for their names: lambdas stand in other
methods, other variables are captured, and everything is somewhere else in the
source text. Where captures are compared by place, none of this may have an
influence on what is shared. It has one on what is generated, though. A method
is named after the method around the first lambda of its class, and numbered
among those of the same name, and a call site passes the variables of its own
lambda. So the plans are not the same; but they are once names are struck
out (`Plan.unnamed`).

The statement is about two runs, and it is proved by running both side by
side. For the walks this was done before, and here no fault excuses
(`Arena.Renamed.followedBy`), so that answers are equal, faults and divergences
included. For registries every change to a plan is the same change to the plan
without names (`Plan.unnamed_count`, `Plan.unnamed_fold`,
`Plan.unnamed_create`), and what a registry does next depends on nothing
else.
-/

namespace LambdaSharing

/-! ## Arenas that differ in names -/

/-- **Arenas that differ in names and places only.** The nodes have the same
kinds and types, the lists are the same, and the lambdas differ in no more
than `Lambda.Alike` leaves open. -/
structure Arena.Renamed (a b : Arena) : Prop where
  nodes : List.Forall₂ Node.Alike a.nodes.toList b.nodes.toList
  lists : a.lists = b.lists
  lambdas : List.Forall₂ Lambda.Alike a.lambdas.toList b.lambdas.toList

/-- An arena with other places in the source text, other owners and other
captured variables. -/
def Arena.rename (a : Arena) (span : Span → Span) (owner : Name → Name)
    (var : SymbolId → SymbolId) : Arena where
  nodes := a.nodes.map fun node => { node with span := span node.span }
  lists := a.lists
  lambdas := a.lambdas.map fun lambda =>
    { lambda with
      owner := owner lambda.owner
      captures := lambda.captures.map fun c => { c with var := var c.var }
      span := span lambda.span }

/-- Entries in the same place of related arrays are related. -/
theorem rel_getElem?_of_forall₂ {α β : Type} {R : α → β → Prop} {xs : Array α} {ys : Array β}
    (h : List.Forall₂ R xs.toList ys.toList) (i : Nat) : Option.Rel R xs[i]? ys[i]? := by
  rw [← Array.getElem?_toList, ← Array.getElem?_toList]
  generalize xs.toList = us, ys.toList = vs at h ⊢
  induction h generalizing i with
  | nil => exact .none
  | cons hxy _ ih =>
    cases i with
    | zero => exact .some hxy
    | succ i => exact ih i

namespace Arena.Renamed

variable {a b : Arena}

/-- Another name changes nothing else. -/
theorem rename (a : Arena) (span : Span → Span) (owner : Name → Name)
    (var : SymbolId → SymbolId) : a.Renamed (a.rename span owner var) where
  nodes := by
    rw [Arena.rename, Array.toList_map, List.forall₂_map_right_iff, List.forall₂_same]
    exact fun node _ => ⟨rfl, rfl⟩
  lists := rfl
  lambdas := by
    rw [Arena.rename, Array.toList_map, List.forall₂_map_right_iff, List.forall₂_same]
    refine fun lambda _ => ⟨rfl, rfl, ?_, rfl, rfl⟩
    rw [List.map_map]
    rfl

/-- **What is read from one of the arenas is read from the other.** -/
theorem followedBy (h : a.Renamed b) : a.FollowedBy (fun _ => False) b where
  scope l := by
    have hlambda : Option.Rel Lambda.Alike (a.lambda? l) (b.lambda? l) :=
      rel_getElem?_of_forall₂ h.lambdas l.index.toNat
    unfold Arena.scope
    generalize a.lambda? l = x, b.lambda? l = y at hlambda ⊢
    cases hlambda with
    | none => exact .fault _
    | some hlambda => exact .ok ⟨rfl, hlambda⟩
  node {s t} hid id := by
    have hnode : Option.Rel Node.Alike (a.node? id) (b.node? id) :=
      rel_getElem?_of_forall₂ h.nodes id.index.toNat
    unfold Scope.node Scope.malformed
    rw [hid]
    generalize a.node? id = x, b.node? id = y at hnode ⊢
    cases hnode with
    | none => exact .fault _
    | some hnode => exact .ok hnode
  children {s t} hid id kind := by
    have hchildren : a.children? kind = b.children? kind := by
      unfold Arena.children? Arena.list?
      rw [h.lists]
    unfold Scope.children Scope.malformed
    rw [hid, hchildren]
    exact .refl _

/-- Fingerprints are the same. -/
theorem lambdaHash (h : a.Renamed b) (limit : Nat) (l : LambdaId) :
    b.lambdaHash limit l = a.lambdaHash limit l :=
  (follows_lambdaHash h.followedBy (.inl ⟨rfl, rfl⟩) l).eq fun _ _ => not_false

/-- Fingerprints of bodies are the same. -/
theorem bodyHash (h : a.Renamed b) (limit : Nat) (l : LambdaId) :
    b.bodyHash limit l = a.bodyHash limit l :=
  (follows_bodyHash h.followedBy (.inl ⟨rfl, rfl⟩) l).eq fun _ _ => not_false

/-- Fingerprints of signatures are the same. -/
theorem signatureHash (h : a.Renamed b) (l : LambdaId) : b.signatureHash l = a.signatureHash l :=
  (follows_signatureHash h.followedBy l).eq fun _ _ => not_false

/-- **Comparisons come to the same**, if captures are compared by place. -/
theorem compareLambdas (h : a.Renamed b) (limit : Nat) (l r : LambdaId) :
    b.compareLambdas .positional limit l r = a.compareLambdas .positional limit l r := by
  have hpairs := fun s s' t t' (hs : Scope.Alike s s') (ht : Scope.Alike t t') =>
    Pairing.Alike.positional hs ht
  exact (follows_compareLambdas h.followedBy (.inl ⟨rfl, rfl⟩) h.followedBy.scope hpairs l r).eq
    fun _ _ => not_false

end Arena.Renamed

/-! ## Plans without names -/

/-- A class without the name of its method. -/
def SharingClass.unnamed (c : SharingClass) : SharingClass := { c with method := default }

/-- A call site without the name of the method and without the variables that
are passed. -/
def CallSite.unnamed (site : CallSite) : CallSite :=
  { site with method := default, captures := [] }

/-- A note without the name of the method. -/
def Note.unnamed : Note → Note
  | .implemented l _ => .implemented l default
  | .folded l canonical _ => .folded l canonical default

/-- **A plan without names.** What is left is which lambdas share a method,
and in which order this was found. -/
def Plan.unnamed (p : Plan) : Plan :=
  { p with
    classes := p.classes.map SharingClass.unnamed
    callSites := p.callSites.map CallSite.unnamed
    notes := p.notes.map Note.unnamed }

/-- The outcome of a search without the name of the method that was found. -/
def Search.unnamed (s : Search) : Search :=
  { s with found := s.found.map fun (id, c) => (id, c.unnamed) }

/-- An answer without names. There are none but in plans. -/
def Answer.unnamed : Answer → Answer
  | .plan p => .plan p.unnamed
  | .reference x => .reference x
  | .refusal e => .refusal e

/-- The first lambda of a class is known without names. -/
theorem SharingClass.canonical_eq_of_unnamed_eq {c d : SharingClass}
    (h : d.unnamed = c.unnamed) : d.canonical = c.canonical := by
  show d.unnamed.canonical = c.unnamed.canonical
  rw [h]

namespace Search

variable {s s' : Search}

/-- Of two searches that are the same up to names both find nothing. -/
theorem found_eq_none_of_unnamed_eq (h : s'.unnamed = s.unnamed) (hs : s.found = none) :
    s'.found = none := by
  have hfound := congrArg found h
  rwa [unnamed, unnamed, hs, Option.map_none, Option.map_eq_none_iff] at hfound

/-- Or both find a class of one number. -/
theorem exists_found_of_unnamed_eq {id : ClassId} {c : SharingClass}
    (h : s'.unnamed = s.unnamed) (hs : s.found = some (id, c)) :
    ∃ d, s'.found = some (id, d) ∧ d.unnamed = c.unnamed := by
  have hfound := congrArg found h
  rw [unnamed, unnamed, hs, Option.map_some, Option.map_eq_some_iff] at hfound
  obtain ⟨⟨_, d⟩, hd, heq⟩ := hfound
  obtain ⟨rfl, hcd⟩ := Prod.mk.inj heq
  exact ⟨d, hd, hcd⟩

end Search

/-- A plan that is handed out is answered without names. -/
theorem Answer.unnamed_ofPlan (x : Except Refusal Plan) :
    (ofPlan x).unnamed = ofPlan (x.map Plan.unnamed) := by
  cases x <;> rfl

namespace Plan

variable {p : Plan} {reports : Reports} {l : LambdaId} {captures : List SymbolId} {id : ClassId}
  {c : SharingClass} {hash : UInt64} {method : Method} {s : Search}

/-- A class is found without its name. -/
theorem class?_unnamed : p.unnamed.class? id = (p.class? id).map SharingClass.unnamed :=
  Array.getElem?_map

/-- Where a lambda ended up does not depend on names. -/
theorem canonical?_unnamed : p.unnamed.canonical? l = p.canonical? l := by
  unfold canonical?
  show (p.assignments[l]?).bind _ = (p.assignments[l]?).bind _
  cases p.assignments[l]? with
  | none => rfl
  | some id =>
    show (p.unnamed.class? id).bind _ = (p.class? id).bind _
    rw [class?_unnamed]
    cases p.class? id <;> rfl

/-- Nor does the number of the next class. -/
theorem nextClass_unnamed : p.unnamed.nextClass = p.nextClass := by
  show ClassId.mk (.ofNat (p.classes.map SharingClass.unnamed).size) = _
  rw [Array.size_map]
  rfl

/-- Counting a search has nothing to do with names. -/
theorem unnamed_count : (p.count s).unnamed = p.unnamed.count s.unnamed := rfl

/-- A lambda joins the class that is in the same place without names. -/
theorem unnamed_fold :
    (p.fold reports l captures id c).unnamed = p.unnamed.fold reports l [] id c.unnamed := by
  -- the class that grows is the same with or without its name
  have hclasses :
      (p.classes.modify id.index.toNat fun c => { c with members := c.members.push l }).map
          SharingClass.unnamed =
        (p.classes.map SharingClass.unnamed).modify id.index.toNat fun c =>
          { c with members := c.members.push l } := by
    refine Array.ext_getElem? fun i => ?_
    rw [Array.getElem?_map, Array.getElem?_modify, Array.getElem?_modify, Array.getElem?_map]
    by_cases h : id.index.toNat = i
    · rw [if_pos h, if_pos h]
      cases p.classes[i]? <;> rfl
    · rw [if_neg h, if_neg h]
  unfold fold unnamed
  rw [Plan.mk.injEq]
  refine ⟨hclasses, Array.map_push, rfl, ?_, rfl, rfl⟩
  split
  · exact Array.map_push
  · rfl

/-- A class that is started gets its name from the lambda, and nothing else. -/
theorem unnamed_create :
    (p.create reports l captures hash method).unnamed =
      p.unnamed.create reports l [] hash default := by
  have hnext := nextClass_unnamed (p := p)
  unfold create unnamed at *
  rw [Plan.mk.injEq]
  refine ⟨?_, ?_, ?_, ?_, rfl, rfl⟩
  · rw [Array.map_push, ← hnext]
    rfl
  · rw [Array.map_push, ← hnext]
    rfl
  · rw [← hnext]
  · split
    · exact Array.map_push
    · rfl

end Plan

/-! ## Registries -/

namespace Registry

variable {a b : Arena} {r : Registry a} {r' : Registry b} {l : LambdaId}

/-- **Registries that differ in names only.** How many classes an owner has
is a matter of names, too. -/
structure Alike (r : Registry a) (r' : Registry b) : Prop where
  options : r'.options = r.options
  phase : r'.phase = r.phase
  buckets : r'.buckets = r.buckets
  draft : r'.draft.unnamed = r.draft.unnamed

namespace Alike

/-- Where a lambda ended up is the same. -/
theorem canonical? (h : r.Alike r') (l : LambdaId) : r'.canonical? l = r.canonical? l := by
  show r'.draft.canonical? l = r.draft.canonical? l
  rw [← Plan.canonical?_unnamed, h.draft, Plan.canonical?_unnamed]

/-- So is the first lambda of a class. -/
theorem class? (h : r.Alike r') (id : ClassId) :
    (r'.draft.class? id).map SharingClass.unnamed =
      (r.draft.class? id).map SharingClass.unnamed := by
  rw [← Plan.class?_unnamed, h.draft, Plan.class?_unnamed]

/-- **A search goes through the same comparisons.** -/
theorem searchAmong (h : r.Alike r') (hab : a.Renamed b) (hpolicy : r.options.policy = .positional)
    (ids : List ClassId) :
    Follows (fun _ => False) (fun s s' : Search => s'.unnamed = s.unnamed)
      (r.searchAmong l ids) (r'.searchAmong l ids) := by
  induction ids with
  | nil => exact .ok rfl
  | cons id ids ih =>
    have hclass := h.class? id
    cases hc : r.draft.class? id with
    | none =>
      rw [hc, Option.map_none, Option.map_eq_none_iff] at hclass
      rw [searchAmong_cons_of_none hc, searchAmong_cons_of_none hclass]
      exact ih
    | some c =>
      rw [hc, Option.map_some, Option.map_eq_some_iff] at hclass
      obtain ⟨d, hd, hcd⟩ := hclass
      rw [searchAmong_cons_of_some hc, searchAmong_cons_of_some hd, h.options, hpolicy,
        SharingClass.canonical_eq_of_unnamed_eq hcd, hab.compareLambdas]
      refine (Follows.refl _).bind fun outcome _ houtcome => houtcome ▸ ?_
      by_cases hequivalent : outcome.isEquivalent = true
      · rw [if_pos hequivalent, if_pos hequivalent]
        refine .ok ?_
        show Search.mk (some (id, d.unnamed)) _ _ _ = Search.mk (some (id, c.unnamed)) _ _ _
        rw [hcd]
      · rw [if_neg hequivalent, if_neg hequivalent]
        exact ih.map fun s s' hs => congrArg (Search.followedBy _) hs

/-- The bucket of a fingerprint is the same. -/
theorem bucket (h : r.Alike r') (hash : UInt64) : r'.bucket hash = r.bucket hash :=
  congrArg (·.getD hash []) h.buckets

/-- **An examination finds the same.** -/
theorem examine (h : r.Alike r') (hab : a.Renamed b) (hpolicy : r.options.policy = .positional)
    (l : LambdaId) :
    Follows (fun _ => False)
      (fun e e' : Examination => e'.hash = e.hash ∧ e'.search.unnamed = e.search.unnamed)
      (r.examine l) (r'.examine l) := by
  rw [examine_eq, examine_eq, h.options, hab.lambdaHash]
  refine (hab.followedBy.scope l).bind fun s s' _ => ?_
  refine (Follows.refl (a.lambdaHash r.options.maxDepth l)).bind fun hash _ hhash => hhash ▸ ?_
  cases r.options.deduplicate with
  | false => exact .ok ⟨rfl, rfl⟩
  | true =>
    rw [if_pos rfl, if_pos rfl, h.bucket]
    exact (h.searchAmong hab hpolicy (r.bucket hash)).bind fun search search' hsearch =>
      .ok ⟨rfl, hsearch⟩

/-- **What is accepted is accepted alike.** -/
theorem accept (h : r.Alike r') {e e' : Examination} (hhash : e'.hash = e.hash)
    (hsearch : e'.search.unnamed = e.search.unnamed) (l : LambdaId) :
    (r'.accept l e').1 = (r.accept l e).1 ∧ (r.accept l e).2.Alike (r'.accept l e').2 := by
  have hcount : (r'.draft.count e'.search).unnamed = (r.draft.count e.search).unnamed := by
    rw [Plan.unnamed_count, Plan.unnamed_count, h.draft, hsearch]
  have hnext : r'.draft.nextClass = r.draft.nextClass := by
    rw [← Plan.nextClass_unnamed, h.draft, Plan.nextClass_unnamed]
  cases hf : e.search.found with
  | none =>
    rw [accept_of_none hf, accept_of_none (Search.found_eq_none_of_unnamed_eq hsearch hf)]
    refine ⟨by rw [hnext], h.options, rfl, ?_, ?_⟩
    · show r'.buckets.insert e'.hash (r'.bucket e'.hash ++ [r'.draft.nextClass]) = _
      rw [hhash, h.buckets, h.bucket, hnext]
    · show (Plan.create _ _ _ _ _ _).unnamed = (Plan.create _ _ _ _ _ _).unnamed
      rw [Plan.unnamed_create, Plan.unnamed_create, hcount, h.options, hhash]
  | some found =>
    obtain ⟨id, c⟩ := found
    obtain ⟨d, hf', hcd⟩ := Search.exists_found_of_unnamed_eq hsearch hf
    rw [accept_of_found hf, accept_of_found hf']
    refine ⟨by rw [SharingClass.canonical_eq_of_unnamed_eq hcd], h.options, rfl, h.buckets, ?_⟩
    show (Plan.fold _ _ _ _ _ _).unnamed = (Plan.fold _ _ _ _ _ _).unnamed
    rw [Plan.unnamed_fold, Plan.unnamed_fold, hcount, h.options, hcd]

/-- **A submission is answered with the same reference or refusal.** -/
theorem submit (h : r.Alike r') (hab : a.Renamed b) (hpolicy : r.options.policy = .positional)
    (l : LambdaId) :
    (r'.submit l).1 = (r.submit l).1 ∧ (r.submit l).2.Alike (r'.submit l).2 := by
  unfold Registry.submit
  rw [h.phase, h.canonical?]
  by_cases hphase : r.phase = .finalized
  · rw [if_pos hphase, if_pos hphase]
    exact ⟨rfl, h⟩
  · rw [if_neg hphase, if_neg hphase]
    cases r.canonical? l with
    | some x => exact ⟨rfl, h⟩
    | none =>
      have hexamine := h.examine hab hpolicy l
      generalize r.examine l = x, r'.examine l = y at hexamine ⊢
      cases hexamine with
      | fault fault => exact ⟨rfl, h⟩
      | excuse hfalse _ => exact hfalse.elim
      | ok he =>
        obtain ⟨hreference, hafter⟩ := h.accept he.1 he.2 l
        exact ⟨congrArg Except.ok hreference, hafter⟩

/-- The plan that is handed out is the same up to names. -/
theorem finalize (h : r.Alike r') :
    r'.finalize.1.map Plan.unnamed = r.finalize.1.map Plan.unnamed ∧
      r.finalize.2.Alike r'.finalize.2 := by
  refine ⟨?_, ?_⟩
  · unfold Registry.finalize
    rw [h.phase]
    by_cases hphase : r.phase = .finalized
    · rw [if_pos hphase, if_pos hphase]
    · rw [if_neg hphase, if_neg hphase]
      exact congrArg Except.ok h.draft
  · rw [finalize_snd, finalize_snd]
    exact ⟨h.options, rfl, h.buckets, h.draft⟩

/-- A request is answered with the same, up to names. -/
theorem answer (h : r.Alike r') (hab : a.Renamed b) (hpolicy : r.options.policy = .positional)
    (q : Request) :
    (r'.answer q).1.unnamed = (r.answer q).1.unnamed ∧ (r.answer q).2.Alike (r'.answer q).2 := by
  cases q with
  | submit l =>
    obtain ⟨hanswer, hafter⟩ := h.submit hab hpolicy l
    exact ⟨congrArg (fun x => (Answer.ofReference x).unnamed) hanswer, hafter⟩
  | finalize =>
    obtain ⟨hanswer, hafter⟩ := h.finalize
    refine ⟨?_, hafter⟩
    show (Answer.ofPlan r'.finalize.1).unnamed = (Answer.ofPlan r.finalize.1).unnamed
    rw [Answer.unnamed_ofPlan, Answer.unnamed_ofPlan, hanswer]

/-- **Two runs are the same up to names.** -/
theorem run (h : r.Alike r') (hab : a.Renamed b) (hpolicy : r.options.policy = .positional)
    (requests : List Request) :
    (r'.run requests).1.map Answer.unnamed = (r.run requests).1.map Answer.unnamed ∧
      (r.run requests).2.Alike (r'.run requests).2 := by
  induction requests generalizing r r' with
  | nil => exact ⟨rfl, h⟩
  | cons q rest ih =>
    obtain ⟨hanswer, hafter⟩ := h.answer hab hpolicy q
    obtain ⟨hrest, hend⟩ := ih hafter (by rwa [options_answer])
    exact ⟨congrArg₂ List.cons hanswer hrest, hend⟩

end Alike

end Registry

/-- **Names do not matter.** Of two arenas that differ in names and places
only, lambdas have the same fingerprints and the same faults, comparisons by
place come to the same outcome, and registries that compare by place answer
the same requests alike: with the same references and refusals, and with plans
that are the same up to names. -/
theorem answers_of_renamed {a b : Arena} (h : a.Renamed b) {o : Options}
    (hpolicy : o.policy = .positional) (limit : Nat) (requests : List Request) :
    (∀ l, b.lambdaHash limit l = a.lambdaHash limit l ∧ b.bodyHash limit l = a.bodyHash limit l ∧
      b.signatureHash l = a.signatureHash l) ∧
    (∀ l r, b.compareLambdas .positional limit l r = a.compareLambdas .positional limit l r) ∧
    ((Registry.new b o).run requests).1.map Answer.unnamed =
      ((Registry.new a o).run requests).1.map Answer.unnamed ∧
    ((Registry.new b o).run requests).2.draft.unnamed =
      ((Registry.new a o).run requests).2.draft.unnamed := by
  have hnew : (Registry.new a o).Alike (Registry.new b o) := ⟨rfl, rfl, rfl, rfl⟩
  obtain ⟨hanswers, hend⟩ := hnew.run h hpolicy requests
  exact ⟨fun l => ⟨h.lambdaHash limit l, h.bodyHash limit l, h.signatureHash l⟩,
    fun l r => h.compareLambdas limit l r, hanswers, hend.draft⟩

/-- The five lambdas in another method and with other captured variables. They
are not the lambdas they were, but they are shared as they were. -/
theorem answers_of_renamed_fiveLambdas :
    let renamed := Arena.fiveLambdas.rename id (fun _ => ⟨3⟩) fun var => ⟨var.index + 1⟩
    Arena.fiveLambdas.Renamed renamed ∧
      renamed.lambda? ⟨0⟩ ≠ Arena.fiveLambdas.lambda? ⟨0⟩ ∧
      renamed.lambdaHash 2 ⟨0⟩ = Arena.fiveLambdas.lambdaHash 2 ⟨0⟩ ∧
      renamed.compareLambdas .positional 2 ⟨0⟩ ⟨1⟩ =
        Arena.fiveLambdas.compareLambdas .positional 2 ⟨0⟩ ⟨1⟩ ∧
      ((Registry.new renamed {}).run [.submit ⟨0⟩, .submit ⟨1⟩, .finalize]).1.map Answer.unnamed =
        ((Registry.new Arena.fiveLambdas {}).run [.submit ⟨0⟩, .submit ⟨1⟩, .finalize]).1.map
          Answer.unnamed := by
  have hrenamed := Arena.Renamed.rename Arena.fiveLambdas id (fun _ => ⟨3⟩)
    fun var => ⟨var.index + 1⟩
  obtain ⟨hhash, hcompare, hanswers, -⟩ := @answers_of_renamed _ _ hrenamed {} rfl 2
    [.submit ⟨0⟩, .submit ⟨1⟩, .finalize]
  refine ⟨hrenamed, ?_, (hhash ⟨0⟩).1, hcompare ⟨0⟩ ⟨1⟩, hanswers⟩
  simp [Arena.rename, Arena.fiveLambdas, Arena.lambda?, Arena.capturing]

end LambdaSharing
