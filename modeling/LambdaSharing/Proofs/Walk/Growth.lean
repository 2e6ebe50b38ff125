import LambdaSharing.Arena.Build
import LambdaSharing.Proofs.Walk.Simulation

/-!
# Answers survive the growth of an arena

An arena is appended to while its lambdas are being hashed and compared, so
the question is whether an answer that was given stays true. That all
positions keep their content is not enough for this. Nothing is promised about
the positions that nodes mention, and some may lie beyond the end, where
growth puts something: what was no node becomes one, a list that reached past
the stored lists is filled up, and a closure of a lambda that was not
registered gets one. So a body may say something else after the arena has
grown.

But then it could not be read before. A walk that came to an answer has found
all that it asked for, and what is found once is found again
(`Arena.ExtendedBy`). In terms of walks side by side, all faults excuse: the
walk over the larger arena follows the one over the smaller arena, with no
obligation once that has met a fault.

That an arena grows by extension is a matter of its three primitives.
`Build.Call` lists what can be called to write down bodies, and every one of
these calls is put together from the primitives (`Build.Call.extends`). Even
the last node that an arena takes, which has the word of an absent child, is
no exception: walks never look for the node of an absent child.
-/

namespace LambdaSharing

/-! ## Extension -/

/-- **All that an arena holds is in the same place in another arena.** -/
structure Arena.ExtendedBy (a b : Arena) : Prop where
  nodes : a.nodes.toList <+: b.nodes.toList
  lists : a.lists.toList <+: b.lists.toList
  lambdas : a.lambdas.toList <+: b.lambdas.toList

section Prefixes

variable {α : Type} {xs ys : Array α}

/-- What is in a place stays there. -/
theorem getElem?_of_prefix (h : xs.toList <+: ys.toList) {i : Nat} {x : α}
    (hx : xs[i]? = some x) : ys[i]? = some x := by
  rw [← Array.getElem?_toList] at hx ⊢
  obtain ⟨hi, rfl⟩ := List.getElem?_eq_some_iff.1 hx
  exact List.prefix_iff_getElem?.1 h i hi

/-- So does what is in a range of places. -/
theorem extract_of_prefix (h : xs.toList <+: ys.toList) {first last : Nat}
    (hlast : last ≤ xs.size) : ys.extract first last = xs.extract first last := by
  obtain ⟨more, hmore⟩ := h
  have hys : ys = xs ++ more.toArray := by
    rw [← Array.toList_inj, ← hmore, Array.toList_append]
  have hbeyond : last - xs.size = 0 := Nat.sub_eq_zero_of_le hlast
  rw [hys, Array.extract_append, hbeyond, Array.extract_zero, Array.append_empty]

theorem toList_appendList {zs : List α} : (xs.appendList zs).toList = xs.toList ++ zs := by
  rw [Array.appendList_eq_append, Array.toList_appendList]

/-- What is appended comes right behind what was there. -/
theorem extract_appendList {zs : List α} :
    ((xs.appendList zs).extract xs.size (xs.size + zs.length)).toList = zs := by
  rw [Array.toList_extract, toList_appendList, List.extract_eq_take_drop, ← Array.length_toList,
    List.drop_left, Nat.add_sub_cancel_left, List.take_length]

end Prefixes

namespace Arena.ExtendedBy

variable {a b c : Arena}

theorem refl (a : Arena) : a.ExtendedBy a :=
  ⟨List.prefix_rfl, List.prefix_rfl, List.prefix_rfl⟩

theorem trans (h : a.ExtendedBy b) (h' : b.ExtendedBy c) : a.ExtendedBy c :=
  ⟨h.nodes.trans h'.nodes, h.lists.trans h'.lists, h.lambdas.trans h'.lambdas⟩

theorem node? (h : a.ExtendedBy b) {id : NodeId} {node : Node} (hnode : a.node? id = some node) :
    b.node? id = some node :=
  getElem?_of_prefix h.nodes hnode

theorem nodeIn? (h : a.ExtendedBy b) {place : Child} {node : Node}
    (hnode : a.nodeIn? place = some node) : b.nodeIn? place = some node :=
  getElem?_of_prefix h.nodes hnode

theorem lambda? (h : a.ExtendedBy b) {l : LambdaId} {lambda : Lambda}
    (hlambda : a.lambda? l = some lambda) : b.lambda? l = some lambda :=
  getElem?_of_prefix h.lambdas hlambda

/-- A list that is stored is stored as it is. -/
theorem list? (h : a.ExtendedBy b) {range : NodeRange} {children : List Child}
    (hlist : a.list? range = some children) : b.list? range = some children := by
  unfold Arena.list? at hlist ⊢
  by_cases hempty : range.isEmpty = true
  · rwa [if_pos hempty] at hlist ⊢
  · rw [if_neg hempty] at hlist ⊢
    by_cases hstored : range.start.toNat + range.len.toNat ≤ a.lists.size
    · have hsize : a.lists.size ≤ b.lists.size := h.lists.length_le
      rw [if_pos hstored] at hlist
      rw [if_pos (Nat.le_trans hstored hsize), extract_of_prefix h.lists hstored]
      exact hlist
    · rw [if_neg hstored] at hlist
      cases hlist

/-- So the children that were found are found again. -/
theorem children? (h : a.ExtendedBy b) {kind : NodeKind} {children : List Child}
    (hchildren : a.children? kind = some children) : b.children? kind = some children := by
  unfold Arena.children? at hchildren ⊢
  cases hrange : kind.range? with
  | none => rwa [hrange] at hchildren
  | some range =>
    rw [hrange] at hchildren
    obtain ⟨list, hlist, rfl⟩ := Option.map_eq_some_iff.1 hchildren
    exact Option.map_eq_some_iff.2 ⟨list, h.list? hlist, rfl⟩

end Arena.ExtendedBy

/-! ## What is appended -/

namespace Arena

variable {a b : Arena}

/-- A node is put in the place behind all others. -/
theorem push_eq_ok {node : Node} {place : Child} (h : a.push node = .ok (place, b)) :
    place.word.toNat = a.nodes.size ∧ b = { a with nodes := a.nodes.push node } := by
  unfold push at h
  split at h
  · cases h
  · obtain ⟨rfl, rfl⟩ := h
    rw [Child.word_ofWord]
    exact ⟨UInt32.toNat_ofNat_of_lt' (Nat.lt_of_not_le ‹_›), rfl⟩

/-- A lambda is put behind all others. -/
theorem pushLambda_eq_ok {lambda : Lambda} {l : LambdaId} (h : a.pushLambda lambda = .ok (l, b)) :
    l.index.toNat = a.lambdas.size ∧ b = { a with lambdas := a.lambdas.push lambda } := by
  unfold pushLambda at h
  split at h
  · cases h
  · obtain ⟨rfl, rfl⟩ := h
    exact ⟨UInt32.toNat_ofNat_of_lt' (Nat.lt_of_not_le ‹_›), rfl⟩

/-- A list is found in the range that was given out for it, and nothing but
lists has changed. -/
theorem pushList_eq_ok {children : List Child} {range : NodeRange}
    (h : a.pushList children = .ok (range, b)) :
    b.list? range = some children ∧ b.nodes = a.nodes ∧ b.lambdas = a.lambdas := by
  unfold pushList at h
  by_cases hempty : children.isEmpty = true
  · rw [if_pos hempty] at h
    obtain ⟨rfl, rfl⟩ := h
    rw [List.isEmpty_iff.1 hempty]
    exact ⟨rfl, rfl, rfl⟩
  rw [if_neg hempty] at h
  by_cases hfull : a.lists.size ≥ UInt32.size
  · rw [if_pos hfull] at h
    cases h
  rw [if_neg hfull] at h
  by_cases hlong : children.length ≥ UInt16.size
  · rw [if_pos hlong] at h
    cases h
  rw [if_neg hlong] at h
  obtain ⟨rfl, rfl⟩ := h
  refine ⟨?_, rfl, rfl⟩
  -- the two numbers of the range are not cut off
  have hfirst : (UInt32.ofNat a.lists.size).toNat = a.lists.size :=
    UInt32.toNat_ofNat_of_lt' (Nat.lt_of_not_le hfull)
  have hlen : (UInt16.ofNat children.length).toNat = children.length :=
    UInt16.toNat_ofNat_of_lt' (Nat.lt_of_not_le hlong)
  have hsome : ¬ (UInt16.ofNat children.length == 0) = true := by
    intro h
    rw [beq_iff_eq.1 h] at hlen
    exact hempty (List.isEmpty_iff_length_eq_zero.2 hlen.symm)
  have hsize : (a.lists.appendList children).size = a.lists.size + children.length := by
    rw [← Array.length_toList, toList_appendList, List.length_append, Array.length_toList]
  simp only [list?, NodeRange.isEmpty, hfirst, hlen]
  rw [if_neg hsome, if_pos (Nat.le_of_eq hsize.symm), extract_appendList]

end Arena

/-! ## Growth -/

namespace Build

variable {α β : Type}

/-- A step that adds to an arena, if it is not refused. -/
def Extends (m : Build α) : Prop :=
  ∀ (a b : Arena) (x : α), m a = .ok (x, b) → a.ExtendedBy b

/-- Reading does not add anything. -/
theorem Extends.get : Extends (get : Build Arena) := by
  rintro a _ _ ⟨⟩
  exact .refl a

/-- A step that is refused does not either. -/
theorem Extends.refuse (why : Arena.Refusal) : Extends (refuse why : Build α) := nofun

/-- Two steps, one after the other, are one step. -/
theorem Extends.bind {m : Build α} {f : α → Build β} (hm : Extends m) (hf : ∀ x, Extends (f x)) :
    Extends (m >>= f) := by
  intro a c y h
  change (m a >>= fun (x, b) => f x b) = .ok (y, c) at h
  obtain ⟨⟨x, b⟩, hx, hy⟩ := bind_eq_ok_iff.1 h
  exact (hm a b x hx).trans (hf x b c y hy)

/-- A node is put behind the others. -/
theorem extends_pushSpanned (kind : NodeKind) (type : TypeId) (span : Span) :
    Extends (pushSpanned kind type span) := by
  intro a b place h
  obtain ⟨-, rfl⟩ := Arena.push_eq_ok h
  refine ⟨?_, List.prefix_rfl, List.prefix_rfl⟩
  rw [Array.toList_push]
  exact List.prefix_append _ _

/-- So is a list, if it is not empty. -/
theorem extends_pushList (children : List Child) : Extends (pushList children) := by
  intro a b range h
  unfold pushList Arena.pushList at h
  split at h
  · obtain ⟨rfl, rfl⟩ := h
    exact .refl _
  · split at h
    · cases h
    · split at h
      · cases h
      · obtain ⟨rfl, rfl⟩ := h
        refine ⟨List.prefix_rfl, ?_, List.prefix_rfl⟩
        rw [Array.appendList_eq_append, Array.toList_appendList]
        exact List.prefix_append _ _

/-- And so is a lambda. -/
theorem extends_pushLambda (lambda : Lambda) : Extends (pushLambda lambda) := by
  intro a b l h
  obtain ⟨-, rfl⟩ := Arena.pushLambda_eq_ok h
  refine ⟨List.prefix_rfl, List.prefix_rfl, ?_⟩
  rw [Array.toList_push]
  exact List.prefix_append _ _

/-- A node that has no place in the source text. -/
theorem extends_push (kind : NodeKind) (type : TypeId) : Extends (push kind type) :=
  extends_pushSpanned kind type .none

/-- A node with a list of children comes with the list. -/
theorem extends_pushWithList (children : List Child) (kind : NodeRange → NodeKind)
    (type : TypeId) : Extends (do push (kind (← pushList children)) type) :=
  (extends_pushList children).bind fun range => extends_push (kind range) type

/-- **What can be called to write down a body.** -/
inductive Call : {α : Type} → Build α → Prop where
  | pushSpanned (kind : NodeKind) (type : TypeId) (span : Span) :
    Call (Build.pushSpanned kind type span)
  | push (kind : NodeKind) (type : TypeId) : Call (Build.push kind type)
  | pushList (children : List Child) : Call (Build.pushList children)
  | pushLambda (lambda : Lambda) : Call (Build.pushLambda lambda)
  | literal (value : Literal) (type : TypeId) : Call (Build.literal value type)
  | int (value : Int64) : Call (Build.int value)
  | long (value : Int64) : Call (Build.long value)
  | string (value : Name) : Call (Build.string value)
  | var (slot : Slot) (type : TypeId) : Call (Build.var slot type)
  | param (index : UInt32) (type : TypeId) : Call (Build.param index type)
  | capture (index : UInt32) (type : TypeId) : Call (Build.capture index type)
  | localVar (index : UInt32) (type : TypeId) : Call (Build.localVar index type)
  | global (symbol : SymbolId) (type : TypeId) : Call (Build.global symbol type)
  | this (type : TypeId) : Call (Build.this type)
  | field (receiver : Child) (field : SymbolId) (type : TypeId) :
    Call (Build.field receiver field type)
  | index (receiver index : Child) (type : TypeId) : Call (Build.index receiver index type)
  | invoke (receiver : Child) (method : SymbolId) (args : List Child) (type : TypeId) :
    Call (Build.invoke receiver method args type)
  | new (ctor : SymbolId) (args : List Child) (type : TypeId) : Call (Build.new ctor args type)
  | closure (lambda : LambdaId) (captures : List Child) : Call (Build.closure lambda captures)
  | cast (target : TypeId) (operand : Child) : Call (Build.cast target operand)
  | instanceOf (operand : Child) (target : TypeId) : Call (Build.instanceOf operand target)
  | unary (op : UnaryOp) (operand : Child) (type : TypeId) : Call (Build.unary op operand type)
  | binary (op : BinaryOp) (left right : Child) (type : TypeId) :
    Call (Build.binary op left right type)
  | assign (target value : Child) : Call (Build.assign target value)
  | conditional (cond thenBranch elseBranch : Child) (type : TypeId) :
    Call (Build.conditional cond thenBranch elseBranch type)
  | block (stmts : List Child) : Call (Build.block stmts)
  | declare (slot : UInt32) (type : TypeId) (init : Child) : Call (Build.declare slot type init)
  | branch (cond thenBranch elseBranch : Child) : Call (Build.branch cond thenBranch elseBranch)
  | loop (cond body : Child) : Call (Build.loop cond body)
  | ret (value : Child) : Call (Build.ret value)
  | throw (value : Child) : Call (Build.throw value)
  | lambda (owner : Name) (target : TypeId) (params : List TypeId) (captures : List Capture)
    (body : Child) : Call (Build.lambda owner target params captures body)

/-- **Whatever is called adds to the arena.** -/
theorem Call.extends {m : Build α} (h : Call m) : Extends m := by
  cases h with
  | pushSpanned kind type span => exact extends_pushSpanned kind type span
  | pushList children => exact extends_pushList children
  | pushLambda lambda => exact extends_pushLambda lambda
  | lambda owner target params captures body => exact extends_pushLambda _
  | invoke receiver method args type => exact extends_pushWithList args (.invoke receiver method) _
  | new ctor args type => exact extends_pushWithList args (.new ctor) _
  | block stmts => exact extends_pushWithList stmts .block _
  | closure lambda captures =>
    refine Extends.get.bind fun a => ?_
    cases a.lambda? lambda with
    | none => exact .refuse _
    | some nested => exact extends_pushWithList captures (.closure lambda) _
  | assign target value =>
    refine Extends.get.bind fun a => ?_
    cases a.nodeIn? target with
    | none => exact .refuse _
    | some node => exact extends_push _ _
  | _ => exact extends_push _ _

end Build

/-- **An arena grows** by calls that are not refused, whatever their
arguments. -/
inductive Arena.Grows : Arena → Arena → Prop where
  | refl (a : Arena) : Grows a a
  | call {α : Type} {a b c : Arena} {m : Build α} {x : α} (before : Grows a b)
    (hm : Build.Call m) (hrun : m b = .ok (x, c)) : Grows a c

/-- What has grown holds all that was there before. -/
theorem Arena.Grows.extendedBy {a b : Arena} (h : a.Grows b) : a.ExtendedBy b := by
  induction h with
  | refl a => exact .refl a
  | call _ hm hrun ih => exact ih.trans (hm.extends _ _ _ hrun)

/-- To grow again is to grow. -/
theorem Arena.Grows.trans {a b c : Arena} (h : a.Grows b) (h' : b.Grows c) : a.Grows c := by
  induction h' with
  | refl => exact h
  | call _ hm hrun ih => exact (ih h).call hm hrun

/-! ## Walks over what has grown -/

namespace Arena.ExtendedBy

variable {a b : Arena}

/-- A lambda that was registered is read as it was. -/
theorem follows_scope (h : a.ExtendedBy b) (l : LambdaId) :
    Follows (fun _ => True) Eq (a.scope l) (b.scope l) := by
  unfold Arena.scope
  cases hl : a.lambda? l with
  | none => exact .excuse trivial _
  | some lambda =>
    rw [h.lambda? hl]
    exact .refl _

/-- What could be read is read as it was. -/
theorem followedBy (h : a.ExtendedBy b) : a.FollowedBy (fun _ => True) b where
  scope l := (h.follows_scope l).mono fun s _ hs => hs ▸ .refl s
  node {s t} _ id := by
    unfold Scope.node
    cases hnode : a.node? id with
    | none => exact .excuse trivial _
    | some node =>
      rw [h.node? hnode]
      exact .ok ⟨rfl, rfl⟩
  children {s t} hid id kind := by
    unfold Scope.children Scope.malformed
    cases hchildren : a.children? kind with
    | none => exact .excuse trivial _
    | some children =>
      rw [h.children? hchildren, hid]
      exact .refl _

end Arena.ExtendedBy

/-- **Answers survive growth.** Whatever was appended in the meantime, a
lambda that had a fingerprint has the same one, and two lambdas that were
compared compare the same, under the limit that was used before. -/
theorem answers_after_growth {a b : Arena} (h : a.Grows b) (policy : CapturePolicy) (limit : Nat)
    (l r : LambdaId) :
    (∀ hash, a.lambdaHash limit l = .ok hash → b.lambdaHash limit l = .ok hash) ∧
      (∀ hash, a.bodyHash limit l = .ok hash → b.bodyHash limit l = .ok hash) ∧
      (∀ hash, a.signatureHash l = .ok hash → b.signatureHash l = .ok hash) ∧
      (∀ outcome, a.compareLambdas policy limit l r = .ok outcome →
        b.compareLambdas policy limit l r = .ok outcome) := by
  have hext := h.extendedBy
  have hfollowed := hext.followedBy
  have hlevels : Levels (fun _ => True) limit limit limit limit := .inl ⟨rfl, rfl⟩
  refine ⟨fun hash hok => ?_, fun hash hok => ?_, fun hash hok => ?_, fun outcome hok => ?_⟩
  · exact (follows_lambdaHash hfollowed hlevels l).ok_of_ok hok
  · exact (follows_bodyHash hfollowed hlevels l).ok_of_ok hok
  · exact (follows_signatureHash hfollowed l).ok_of_ok hok
  · refine (follows_compareLambdas hfollowed hlevels hext.follows_scope ?_ l r).ok_of_ok hok
    rintro s _ t _ rfl rfl
    exact .refl _

/-- The five lambdas, and a sixth one that was registered later. -/
def Arena.sixLambdas : Arena :=
  { fiveLambdas with
    lambdas := fiveLambdas.lambdas.push
      { owner := .empty, target := ⟨12⟩, params := [], body := nodeAt 6 } }

/-- Once the sixth lambda is registered it has a fingerprint, and what there
was to say of the other five is unchanged. -/
theorem answers_of_sixLambdas :
    Arena.fiveLambdas.Grows Arena.sixLambdas ∧
      Arena.fiveLambdas.lambdaHash 2 ⟨5⟩ = .error (.unknownLambda ⟨5⟩) ∧
      (∃ hash, Arena.sixLambdas.lambdaHash 2 ⟨5⟩ = .ok hash) ∧
      (∃ hash, Arena.fiveLambdas.lambdaHash 2 ⟨0⟩ = .ok hash ∧
        Arena.sixLambdas.lambdaHash 2 ⟨0⟩ = .ok hash) ∧
      (∃ hash, Arena.fiveLambdas.bodyHash 2 ⟨0⟩ = .ok hash ∧
        Arena.sixLambdas.bodyHash 2 ⟨0⟩ = .ok hash) ∧
      (∃ hash, Arena.fiveLambdas.signatureHash ⟨0⟩ = .ok hash ∧
        Arena.sixLambdas.signatureHash ⟨0⟩ = .ok hash) ∧
      ∃ outcome, Arena.fiveLambdas.compareLambdas .identity 2 ⟨0⟩ ⟨2⟩ = .ok outcome ∧
        Arena.sixLambdas.compareLambdas .identity 2 ⟨0⟩ ⟨2⟩ = .ok outcome := by
  have hgrows : Arena.fiveLambdas.Grows Arena.sixLambdas :=
    (Arena.Grows.refl _).call (.lambda .empty ⟨12⟩ [] [] (Arena.nodeAt 6)) rfl
  obtain ⟨hlambda, hbody, hsignature, hcompare⟩ :=
    answers_after_growth hgrows .identity 2 ⟨0⟩ ⟨2⟩
  obtain ⟨lambdaHash, hlambda₀⟩ : ∃ hash, Arena.fiveLambdas.lambdaHash 2 ⟨0⟩ = .ok hash :=
    ⟨_, Arena.lambdaHash_of_words rfl⟩
  obtain ⟨bodyHash, hbody₀⟩ : ∃ hash, Arena.fiveLambdas.bodyHash 2 ⟨0⟩ = .ok hash :=
    ⟨_, by rw [Arena.bodyHash_eq]; rfl⟩
  obtain ⟨outcome, hcompare₀⟩ :
      ∃ outcome, Arena.fiveLambdas.compareLambdas .identity 2 ⟨0⟩ ⟨2⟩ = .ok outcome :=
    ⟨_, by rw [Arena.compareLambdas_eq]; rfl⟩
  refine ⟨hgrows, rfl, ⟨_, Arena.lambdaHash_of_words rfl⟩, ⟨lambdaHash, hlambda₀, ?_⟩,
    ⟨bodyHash, hbody₀, ?_⟩, ⟨_, rfl, hsignature _ rfl⟩, outcome, hcompare₀, ?_⟩
  · exact hlambda lambdaHash hlambda₀
  · exact hbody bodyHash hbody₀
  · exact hcompare outcome hcompare₀

end LambdaSharing
