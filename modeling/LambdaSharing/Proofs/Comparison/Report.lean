import LambdaSharing.Proofs.Comparison.Equivalence
import LambdaSharing.Proofs.Comparison.FirstDivergence

/-!
# What a comparison reports

A comparison that comes to an end reports the first divergence, and reports
none only if there is none (`Arena.eq_diverged_iff`). This holds for all
arenas. Faults in what comes later than the divergence are never seen, and of
those that are seen the walk makes no report at all.

The walk compares one level of two bodies with the help of what it finds
further down, so what has to be carried from level to level is that it finds
the first failure among all pairs below two places, or that all of them pass
(`Arena.Found`). The checks of the pair itself come first, and after them the
children in their order (`Arena.FoundAmong`); put together, this is the order
of paths.

That nested lambdas pass by their contents is not said by the walk, which
only finds no divergence in them. It follows from what a comparison decides
(`Comparison.Exact`).
-/

namespace LambdaSharing

open Comparison

namespace Arena

variable {a : Arena} {p : Pairing} {x y : Child} {ls rs : List Child}
  {found : Option Divergence} {d : Divergence}

/-- A path leads on from a node through one of its children. -/
theorem NodeAt.follow?_cons_eq_some_iff {l : Node} {i : Nat} {path : List Nat} {x' : Child}
    (h : a.NodeAt x l ls) :
    a.follow? x (i :: path) = some x' ↔ ∃ c, ls[i]? = some c ∧ a.follow? c path = some x' := by
  obtain ⟨id, rfl, hnode, hchildren⟩ := h
  rw [Arena.follow?_cons_eq_some_iff]
  simp [child?, hnode, hchildren]

/-- What passes does at the end of the empty path. -/
theorem Passes.of_follow?_nil {x' y' : Child} (h : a.Passes p x y)
    (hx : a.follow? x [] = some x') (hy : a.follow? y [] = some y') : a.Passes p x' y' := by
  obtain rfl := Option.some.inj hx
  obtain rfl := Option.some.inj hy
  exact h

/-! ## The first failure among pairs of places -/

/-- All pairs of places below two places pass, themselves included. -/
def PassesBelow (a : Arena) (p : Pairing) (x y : Child) : Prop :=
  ∀ path x' y', a.follow? x path = some x' → a.follow? y path = some y' → a.Passes p x' y'

/-- The divergence is the first failure among the pairs of places below two
places. -/
def FailsBelow (a : Arena) (p : Pairing) (x y : Child) (d : Divergence) : Prop :=
  ∃ path, a.follow? x path = some d.left ∧ a.follow? y path = some d.right ∧
    a.FirstFailure p d.left d.right d.reason ∧ a.PassesBefore p x y path

/-- What there is to be found below two places. -/
def Found (a : Arena) (p : Pairing) (x y : Child) : Option Divergence → Prop
  | none => a.PassesBelow p x y
  | some d => a.FailsBelow p x y d

/-- What there is to be found below two lists of places. -/
def FoundAmong (a : Arena) (p : Pairing) (ls rs : List Child) : Option Divergence → Prop
  | none => ∀ (i : Nat) (x y : Child), ls[i]? = some x → rs[i]? = some y → a.PassesBelow p x y
  | some d => ∃ (i : Nat) (x y : Child), ls[i]? = some x ∧ rs[i]? = some y ∧
      a.FailsBelow p x y d ∧
      ∀ j < i, ∀ x' y', ls[j]? = some x' → rs[j]? = some y' → a.PassesBelow p x' y'

namespace Found

/-- Where nothing is, everything passes. -/
theorem absent : a.Found p none none none := by
  intro path x y hx hy
  cases path with
  | nil => exact Passes.absent.of_follow?_nil hx hy
  | cons position path => cases hx

/-- Places that fail come before what is below them. -/
theorem here {reason : DivergenceReason} (h : a.FirstFailure p x y reason) :
    a.Found p x y (some (.mk x y reason)) :=
  ⟨[], rfl, rfl, h, fun before hbefore => absurd hbefore (List.not_lt_nil before)⟩

/-- Below nodes that are alike there is to be found what is among their
children. -/
theorem of_children {l r : Node} (left : a.NodeAt x l ls) (right : a.NodeAt y r rs)
    (halike : a.Alike p l r ls rs) (h : a.FoundAmong p ls rs found) : a.Found p x y found := by
  have hpass : a.Passes p x y := .nodes left right halike
  cases found with
  | none =>
    intro path x' y' hx hy
    cases path with
    | nil => exact hpass.of_follow?_nil hx hy
    | cons i path =>
      obtain ⟨x₀, hx₀, hx⟩ := left.follow?_cons_eq_some_iff.1 hx
      obtain ⟨y₀, hy₀, hy⟩ := right.follow?_cons_eq_some_iff.1 hy
      exact h i x₀ y₀ hx₀ hy₀ path x' y' hx hy
  | some d =>
    obtain ⟨i, x₀, y₀, hx₀, hy₀, ⟨path, hleft, hright, hfails, hbefore⟩, hsiblings⟩ := h
    refine ⟨i :: path, left.follow?_cons_eq_some_iff.2 ⟨x₀, hx₀, hleft⟩,
      right.follow?_cons_eq_some_iff.2 ⟨y₀, hy₀, hright⟩, hfails, ?_⟩
    intro before hlt x' y' hx hy
    cases before with
    | nil => exact hpass.of_follow?_nil hx hy
    | cons j before =>
      obtain ⟨x₁, hx₁, hx⟩ := left.follow?_cons_eq_some_iff.1 hx
      obtain ⟨y₁, hy₁, hy⟩ := right.follow?_cons_eq_some_iff.1 hy
      -- an earlier path leads into an earlier child, or stays before in the same one
      rcases List.cons_lt_cons_iff.1 hlt with hj | ⟨rfl, hlt'⟩
      · exact hsiblings j hj x₁ y₁ hx₁ hy₁ before x' y' hx hy
      · obtain rfl := Option.some.inj (hx₀.symm.trans hx₁)
        obtain rfl := Option.some.inj (hy₀.symm.trans hy₁)
        exact hbefore before hlt' x' y' hx hy

end Found

namespace FoundAmong

/-- Among no places there is nothing to be found. -/
theorem nil : a.FoundAmong p [] [] none := by
  rintro i x y ⟨⟩

/-- Places that fail come before those after them. -/
theorem head (h : a.FailsBelow p x y d) : a.FoundAmong p (x :: ls) (y :: rs) (some d) :=
  ⟨0, x, y, rfl, rfl, h, fun j hj => absurd hj j.not_lt_zero⟩

/-- After places that pass there is to be found what is among the others. -/
theorem tail (hpass : a.PassesBelow p x y) (h : a.FoundAmong p ls rs found) :
    a.FoundAmong p (x :: ls) (y :: rs) found := by
  cases found with
  | none =>
    intro i x' y' hx hy
    cases i with
    | zero =>
      obtain rfl := Option.some.inj hx
      obtain rfl := Option.some.inj hy
      exact hpass
    | succ i => exact h i x' y' hx hy
  | some d =>
    obtain ⟨i, x₀, y₀, hx₀, hy₀, hfails, hbefore⟩ := h
    refine ⟨i + 1, x₀, y₀, hx₀, hy₀, hfails, ?_⟩
    intro j hj x' y' hx hy
    cases j with
    | zero =>
      obtain rfl := Option.some.inj hx
      obtain rfl := Option.some.inj hy
      exact hpass
    | succ j => exact hbefore j (Nat.lt_of_succ_lt_succ hj) x' y' hx hy

end FoundAmong

end Arena

/-! ## The walk finds it -/

namespace Comparison

variable {a : Arena} {below : Pairing → NodeId → NodeId → Except Fault (Option Divergence)}
  {p : Pairing} {left right : NodeId} {limit n : Nat} {found : Option Divergence}
  {d : Divergence} {k m : LambdaId}

/-- Comparing nodes finds what there is to be found below them, if they
belong to lambdas of one signature. -/
structure Orderly (a : Arena)
    (below : Pairing → NodeId → NodeId → Except Fault (Option Divergence)) : Prop where
  found : ∀ {p l r found}, p.left.lambda.signature = p.right.lambda.signature →
    below p l r = .ok found → a.Found p (some l) (some r) found

/-- Lambdas without a divergence have one content. -/
theorem exists_content_of_lambdaSteps
    (hnone : firstWith (pairDivergence a limit n) (lambdaSteps p) = .ok none) :
    p.left.lambda.signature = p.right.lambda.signature ∧
      ∃ c, a.HasContent p.left.lambda.body c ∧ a.HasContent p.right.lambda.body c := by
  have hexact := exact_pairDivergence a limit n
  obtain ⟨⟨c, hc⟩, d, hd⟩ := hexact.read_lambda hnone
  obtain ⟨found, hfound, hiff⟩ := hexact.decides_lambda hc hd
  obtain ⟨hsignature, rfl, -⟩ := hiff.1 (Except.ok.inj (hfound.symm.trans hnone))
  have hcontent := Arena.content?_of_readChild fun s id c (h : a.readNode limit n s id = .ok c) =>
    Arena.content?_of_readNode h
  exact ⟨hsignature, c, ⟨n, hcontent _ _ _ hc⟩, n, hcontent _ _ _ hd⟩

namespace Orderly

/-- Of two children is found what there is to be found below them. -/
theorem child (h : Orderly a below) {x y : Child}
    (hsignature : p.left.lambda.signature = p.right.lambda.signature)
    (hfound : firstWith below (childSteps p x y) = .ok found) : a.Found p x y found := by
  cases x with
  | none =>
    cases y with
    | none =>
      obtain rfl := Except.ok.inj hfound
      exact .absent
    | some r =>
      obtain rfl := Except.ok.inj hfound
      exact .here (.presence nofun)
  | some l =>
    cases y with
    | none =>
      obtain rfl := Except.ok.inj hfound
      exact .here (.presence nofun)
    | some r =>
      rw [childSteps, firstWith_child] at hfound
      exact h.found hsignature hfound

/-- Of equally many children is found what there is to be found among them. -/
theorem children (h : Orderly a below) {ls rs : List Child}
    (hsignature : p.left.lambda.signature = p.right.lambda.signature)
    (hlength : ls.length = rs.length)
    (hfound : firstWith below (childrenSteps p ls rs) = .ok found) :
    a.FoundAmong p ls rs found := by
  induction ls generalizing rs with
  | nil =>
    obtain rfl := List.eq_nil_of_length_eq_zero hlength.symm
    obtain rfl := Except.ok.inj hfound
    exact .nil
  | cons x ls ih =>
    cases rs with
    | nil => cases hlength
    | cons y rs =>
      have hlength := Nat.succ.inj hlength
      rw [Exact.childrenSteps_cons] at hfound
      cases found with
      | none =>
        obtain ⟨hchild, hrest⟩ := firstWith_append_eq_none_iff.1 hfound
        exact .tail (h.child hsignature hchild) (ih hlength hrest)
      | some d =>
        rcases firstWith_append_eq_some_iff.1 hfound with hchild | ⟨hchild, hrest⟩
        · exact .head (h.child hsignature hchild)
        · exact .tail (h.child hsignature hchild) (ih hlength hrest)

section Lambda

variable {l r : Lambda} {policy : CapturePolicy}

/-- A divergence of two lambdas that steps come to is the first one. -/
theorem lambda (h : Orderly a below) (hl : a.lambda? k = some l) (hr : a.lambda? m = some r)
    (hd : firstWith below (lambdaSteps ⟨⟨k, l⟩, ⟨m, r⟩, policy⟩) = .ok (some d)) :
    a.FirstDivergence policy k m d := by
  by_cases hsignature : l.signature = r.signature
  · rw [Exact.lambdaSteps_of_signature_eq hsignature] at hd
    obtain ⟨x, y, reason⟩ := d
    obtain ⟨path, hx, hy, hfails, hbefore⟩ := h.child hsignature hd
    exact .body path hl hr hsignature hx hy hfails hbefore
  · cases hpart : l.signature.mismatch? r.signature with
    | none => exact absurd ((Signature.mismatch?_eq_none_iff _ _).1 hpart) hsignature
    | some part =>
      simp only [lambdaSteps, hpart, firstWith_report, Except.ok.injEq, Option.some.injEq] at hd
      rw [← hd]
      exact .signature hl hr (Signature.mismatch?_eq_some_iff.1 hpart)

/-- Lambdas for which steps come to nothing have no divergence. -/
theorem not_firstDivergence (h : Orderly a below) (hl : a.lambda? k = some l)
    (hr : a.lambda? m = some r)
    (hnone : firstWith below (lambdaSteps ⟨⟨k, l⟩, ⟨m, r⟩, policy⟩) = .ok none)
    (hd : a.FirstDivergence policy k m d) : False := by
  have hsignature : l.signature = r.signature := by
    by_contra hne
    obtain ⟨d, hsteps⟩ := Exact.lambdaSteps_of_signature_ne (p := ⟨⟨k, l⟩, ⟨m, r⟩, policy⟩) hne
    rw [hsteps] at hnone
    cases hnone
  rw [Exact.lambdaSteps_of_signature_eq hsignature] at hnone
  cases hd with
  | signature left right fails =>
    obtain rfl := Option.some.inj (hl.symm.trans left)
    obtain rfl := Option.some.inj (hr.symm.trans right)
    exact fails.ne hsignature
  | body path left right _ toLeft toRight fails _ =>
    obtain rfl := Option.some.inj (hl.symm.trans left)
    obtain rfl := Option.some.inj (hr.symm.trans right)
    exact fails.not_passes (h.child hsignature hnone path _ _ toLeft toRight)

end Lambda

section Node

variable {l r : Node} {steps : List Step}

/-- Payloads without a divergence agree. -/
theorem payloadsAgree (hsignature : p.left.lambda.signature = p.right.lambda.signature)
    (htag : l.kind.tag = r.kind.tag)
    (hsteps : payloadSteps a p left right l.kind.payload r.kind.payload = .ok steps)
    (hnone : firstWith (pairDivergence a limit n) steps = .ok none) :
    a.PayloadsAgree p l.kind.payload r.kind.payload := by
  rcases NodeKind.nested_or_plain htag with ⟨k, m, hk, hm⟩ | ⟨hform, hplain⟩
  · rw [hk, hm] at hsteps ⊢
    obtain ⟨ls, rs, hls, hrs, rfl⟩ := payloadSteps_nested_eq_ok_iff.1 hsteps
    obtain ⟨left, hleft, rfl⟩ := Arena.scope_eq_ok_iff.1 hls
    obtain ⟨right, hright, rfl⟩ := Arena.scope_eq_ok_iff.1 hrs
    obtain ⟨hsame, c, hc, hd⟩ :=
      exists_content_of_lambdaSteps (firstWith_inside_eq_none_iff.1 hnone)
    exact ⟨⟨_, c⟩, ⟨left, hleft, rfl, hc⟩, right, hright, hsame.symm, hd⟩
  · obtain ⟨hleft, hright, rfl⟩ := (payloadSteps_plain_eq_ok_iff hform hplain).1 hsteps
    rw [firstWith_require_eq_none_iff, Pairing.payloadsMatch_iff hsignature hleft hright] at hnone
    exact (Arena.payloadsAgree_of_plain hplain).2 hnone

/-- A divergence of payloads is one of the nodes, and payloads are the first
in which these differ. -/
theorem nodeFailure (h : Orderly a below)
    (hsignature : p.left.lambda.signature = p.right.lambda.signature)
    (htag : l.kind.tag = r.kind.tag)
    (hsteps : payloadSteps a p left right l.kind.payload r.kind.payload = .ok steps)
    (hd : firstWith below steps = .ok (some d)) (ls rs : List Child) :
    ∃ reason, a.NodeFailure p l r ls rs reason ∧ d = .mk (some left) (some right) reason := by
  rcases NodeKind.nested_or_plain htag with ⟨k, m, hk, hm⟩ | ⟨hform, hplain⟩
  · rw [hk, hm] at hsteps
    obtain ⟨ls, rs, hls, hrs, rfl⟩ := payloadSteps_nested_eq_ok_iff.1 hsteps
    obtain ⟨left, hleft, rfl⟩ := Arena.scope_eq_ok_iff.1 hls
    obtain ⟨right, hright, rfl⟩ := Arena.scope_eq_ok_iff.1 hrs
    obtain ⟨inner, hinner, rfl⟩ := firstWith_inside_eq_some_iff.1 hd
    exact ⟨_, .nested hk hm (h.lambda hleft hright hinner), rfl⟩
  · obtain ⟨hleft, hright, rfl⟩ := (payloadSteps_plain_eq_ok_iff hform hplain).1 hsteps
    obtain ⟨hmatch, rfl⟩ := firstWith_require_eq_some_iff.1 hd
    refine ⟨_, .payload htag hplain fun hagree => ?_, rfl⟩
    rw [Arena.payloadsAgree_of_plain hplain,
      ← Pairing.payloadsMatch_iff hsignature hleft hright, hmatch] at hagree
    cases hagree

/-- Of two nodes is found what there is to be found below them. -/
theorem pair (h : Orderly a (pairDivergence a limit n))
    (hsignature : p.left.lambda.signature = p.right.lambda.signature)
    (hsteps : pairSteps a p left right = .ok steps)
    (hfound : firstWith (pairDivergence a limit n) steps = .ok found) :
    a.Found p (some left) (some right) found := by
  obtain ⟨l, r, ls, rs, hl, hr, hls, hrs, hcases⟩ := Exact.pairSteps_eq_ok_iff.1 hsteps
  have hleft : a.NodeAt (some left) l ls :=
    ⟨left, rfl, Scope.node_eq_ok_iff.1 hl, (Scope.children_eq_ok_iff.1 hls).1⟩
  have hright : a.NodeAt (some right) r rs :=
    ⟨right, rfl, Scope.node_eq_ok_iff.1 hr, (Scope.children_eq_ok_iff.1 hrs).1⟩
  rcases hcases with ⟨htag, rfl⟩ | ⟨htag, payload, hpayload, rfl⟩
  · obtain rfl := Except.ok.inj hfound
    exact .here (.nodes hleft hright (.tag htag))
  · cases found with
    | none =>
      simp only [firstWith_append_eq_none_iff, firstWith_require_eq_none_iff, beq_iff_eq] at hfound
      obtain ⟨⟨⟨hnone, htype⟩, hcount⟩, hchildren⟩ := hfound
      have hagree := payloadsAgree hsignature htag hpayload hnone
      exact .of_children hleft hright ⟨htag, hagree, htype, hcount⟩
        (h.children hsignature hcount hchildren)
    | some d =>
      simp only [firstWith_append_eq_some_iff, firstWith_append_eq_none_iff,
        firstWith_require_eq_none_iff, firstWith_require_eq_some_iff, beq_iff_eq,
        beq_eq_false_iff_ne] at hfound
      rcases hfound with ((hd | ⟨hnone, htype, rfl⟩) | ⟨⟨hnone, htype⟩, hcount, rfl⟩) |
        ⟨⟨⟨hnone, htype⟩, hcount⟩, hchildren⟩
      · obtain ⟨reason, hfails, rfl⟩ := h.nodeFailure hsignature htag hpayload hd ls rs
        exact .here (.nodes hleft hright hfails)
      · have hagree := payloadsAgree hsignature htag hpayload hnone
        exact .here (.nodes hleft hright (.type htag hagree htype))
      · have hagree := payloadsAgree hsignature htag hpayload hnone
        exact .here (.nodes hleft hright (.childCount htag hagree htype hcount))
      · have hagree := payloadsAgree hsignature htag hpayload hnone
        exact .of_children hleft hright ⟨htag, hagree, htype, hcount⟩
          (h.children hsignature hcount hchildren)

end Node

end Orderly

/-- **A comparison finds what there is to be found**, whatever levels are left
for it. -/
theorem orderly_pairDivergence (a : Arena) (limit n : Nat) :
    Orderly a (pairDivergence a limit n) := by
  induction n with
  | zero => exact ⟨nofun⟩
  | succ n ih =>
    refine ⟨?_⟩
    intro p l r found hsignature hfound
    cases hsteps : pairSteps a p l r with
    | error e =>
      rw [pairDivergence_of_steps_error hsteps] at hfound
      cases hfound
    | ok steps =>
      rw [pairDivergence_of_steps hsteps] at hfound
      exact ih.pair hsignature hsteps hfound

end Comparison

namespace Arena

variable {a : Arena} {policy : CapturePolicy} {limit : Nat} {k m : LambdaId}

/-- A comparison that comes to an end finds the first divergence, and none
only if there is none. -/
theorem eq_diverged_iff {outcome : Outcome} {d : Divergence}
    (h : a.compareLambdas policy limit k m = .ok outcome) :
    outcome = .diverged d ↔ a.FirstDivergence policy k m d := by
  have horderly := orderly_pairDivergence a limit limit
  rw [compareLambdas_eq, map_eq_ok_iff] at h
  obtain ⟨found, hfound, rfl⟩ := h
  simp only [lambdaDivergence, bind_eq_ok_iff] at hfound
  obtain ⟨ls, hls, rs, hrs, hsteps⟩ := hfound
  obtain ⟨l, hl, rfl⟩ := scope_eq_ok_iff.1 hls
  obtain ⟨r, hr, rfl⟩ := scope_eq_ok_iff.1 hrs
  cases found with
  | none =>
    refine iff_of_false ?_ (horderly.not_firstDivergence hl hr hsteps)
    rintro ⟨⟩
  | some d' =>
    have hd' : a.FirstDivergence policy k m d' := horderly.lambda hl hr hsteps
    constructor
    · rintro ⟨⟩
      exact hd'
    · intro hd
      exact congrArg Outcome.diverged (hd'.unique hd)

/-- **The divergence that a comparison reports is the first one** of the two
lambdas, and the only one that is. -/
theorem firstDivergence_of_compareLambdas {d : Divergence}
    (h : a.compareLambdas policy limit k m = .ok (.diverged d)) :
    a.FirstDivergence policy k m d ∧ ∀ d', a.FirstDivergence policy k m d' → d' = d := by
  refine ⟨(eq_diverged_iff h).1 rfl, ?_⟩
  intro d' hd'
  exact (Outcome.diverged.inj ((eq_diverged_iff h).2 hd')).symm

/-- The first two of the five lambdas return captures of different
variables. -/
theorem firstDivergence_of_fiveLambdas :
    fiveLambdas.compareLambdas .identity 2 ⟨0⟩ ⟨1⟩ =
        .ok (.diverged (.mk (nodeAt 0) (nodeAt 3) (.slot (.capture 0) (.capture 0)))) ∧
      fiveLambdas.FirstDivergence .identity ⟨0⟩ ⟨1⟩
        (.mk (nodeAt 0) (nodeAt 3) (.slot (.capture 0) (.capture 0))) := by
  have h : fiveLambdas.compareLambdas .identity 2 ⟨0⟩ ⟨1⟩ =
      .ok (.diverged (.mk (nodeAt 0) (nodeAt 3) (.slot (.capture 0) (.capture 0)))) := by
    rw [compareLambdas_eq]
    rfl
  exact ⟨h, (firstDivergence_of_compareLambdas h).1⟩

end Arena

end LambdaSharing
