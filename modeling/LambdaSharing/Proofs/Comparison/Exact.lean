import LambdaSharing.Proofs.Comparison.Payload
import LambdaSharing.Proofs.Comparison.Steps

/-!
# What a comparison decides

A comparison never builds the contents of the bodies it walks through, and
yet it decides whether they are equal. Two things have to be shown for this.
Whatever is found to have no divergence was read to the end on both sides
(`Exact.read`): nothing that a fingerprint would look at is passed over. And
of two bodies that can both be read the comparison says whether they have
one content, on whose captures the lambdas agree (`Exact.decides`); in
particular it does not stop with a fault.

Both hold for the nodes at one level if they hold one level further down,
and there for whatever lambdas the nodes belong to, since a nested lambda
brings its own scope. So `Exact` is a property of a way to compare nodes and
a way to read them, and the sections below carry it over to children, to
lists of children, to lambdas, to payloads, and last to the node itself.

Only bodies of lambdas with equal signatures are ever compared, and without
this the second part would be wrong: captures in the same place match only if
their types do.
-/

namespace LambdaSharing.Comparison

variable {a : Arena} {below : Pairing → NodeId → NodeId → Except Fault (Option Divergence)}
  {reads : Scope → NodeId → Except Fault Content} {p : Pairing}

/-- Comparing nodes decides whether what is read of them is the same. -/
structure Exact (below : Pairing → NodeId → NodeId → Except Fault (Option Divergence))
    (reads : Scope → NodeId → Except Fault Content) : Prop where
  /-- Nodes without a divergence can be read. -/
  read : ∀ {p l r}, below p l r = .ok none →
    (∃ c, reads p.left l = .ok c) ∧ ∃ d, reads p.right r = .ok d
  /-- Of nodes that can be read it is decided whether they say the same. -/
  decides : ∀ {p l r c d}, p.left.lambda.signature = p.right.lambda.signature →
    reads p.left l = .ok c → reads p.right r = .ok d →
    ∃ found, below p l r = .ok found ∧ (found = none ↔ c = d ∧ p.Agree c)
  /-- A node that can be read is there. -/
  present : ∀ {s id}, reads s id ≠ .ok .absent

namespace Exact

/-! ## Children -/

/-- Children without a divergence can be read. -/
theorem read_child (h : Exact below reads) {l r : Child}
    (hnone : firstWith below (childSteps p l r) = .ok none) :
    (∃ c, readChild reads p.left l = .ok c) ∧ ∃ d, readChild reads p.right r = .ok d := by
  cases l with
  | none =>
    cases r with
    | none => exact ⟨⟨_, rfl⟩, _, rfl⟩
    | some r => simp [childSteps] at hnone
  | some l =>
    cases r with
    | none => simp [childSteps] at hnone
    | some r =>
      rw [childSteps, firstWith_child] at hnone
      exact h.read hnone

/-- Of children that can be read it is decided whether they say the same. -/
theorem decides_child (h : Exact below reads) {l r : Child} {c d : Content}
    (hsignature : p.left.lambda.signature = p.right.lambda.signature)
    (hl : readChild reads p.left l = .ok c) (hr : readChild reads p.right r = .ok d) :
    Decides below (childSteps p l r) (c = d ∧ p.Agree c) := by
  cases l with
  | none =>
    obtain rfl := Except.ok.inj hl
    cases r with
    | none =>
      obtain rfl := Except.ok.inj hr
      exact .nil ⟨rfl, p.agree_absent⟩
    | some r =>
      refine .report ?_
      rintro ⟨rfl, -⟩
      exact h.present hr
  | some l =>
    cases r with
    | none =>
      obtain rfl := Except.ok.inj hr
      refine .report ?_
      rintro ⟨rfl, -⟩
      exact h.present hl
    | some r =>
      rw [childSteps, Decides, firstWith_child]
      exact h.decides hsignature hl hr

/-! ## Lists of children -/

theorem childrenSteps_cons (p : Pairing) (l r : Child) (ls rs : List Child) :
    childrenSteps p (l :: ls) (r :: rs) = childSteps p l r ++ childrenSteps p ls rs := rfl

/-- Equally many children without a divergence can be read. -/
theorem read_children (h : Exact below reads) {ls rs : List Child}
    (hlength : ls.length = rs.length)
    (hnone : firstWith below (childrenSteps p ls rs) = .ok none) :
    (∃ cs, ls.mapM (readChild reads p.left) = .ok cs) ∧
      ∃ ds, rs.mapM (readChild reads p.right) = .ok ds := by
  simp only [mapM_eq_ok_iff]
  induction ls generalizing rs with
  | nil =>
    obtain rfl := List.eq_nil_of_length_eq_zero hlength.symm
    exact ⟨⟨[], .nil⟩, [], .nil⟩
  | cons l ls ih =>
    cases rs with
    | nil => simp at hlength
    | cons r rs =>
      rw [childrenSteps_cons, firstWith_append_eq_none_iff] at hnone
      obtain ⟨⟨c, hc⟩, d, hd⟩ := h.read_child hnone.1
      obtain ⟨⟨cs, hcs⟩, ds, hds⟩ := ih (Nat.succ.inj hlength) hnone.2
      exact ⟨⟨c :: cs, .cons hc hcs⟩, d :: ds, .cons hd hds⟩

/-- Of equally many children that can be read it is decided whether all of
them say the same. -/
theorem decides_children (h : Exact below reads) {ls rs : List Child} {cs ds : List Content}
    (hsignature : p.left.lambda.signature = p.right.lambda.signature)
    (hlength : ls.length = rs.length)
    (hl : ls.mapM (readChild reads p.left) = .ok cs)
    (hr : rs.mapM (readChild reads p.right) = .ok ds) :
    Decides below (childrenSteps p ls rs) (cs = ds ∧ ∀ c ∈ cs, p.Agree c) := by
  rw [mapM_eq_ok_iff] at hl hr
  induction hl generalizing rs ds with
  | nil =>
    obtain rfl := List.eq_nil_of_length_eq_zero hlength.symm
    cases hr
    exact .nil ⟨rfl, by simp⟩
  | cons hc _ ih =>
    cases hr with
    | nil => simp at hlength
    | cons hd hds =>
      rw [childrenSteps_cons]
      refine ((h.decides_child hsignature hc hd).append
        fun _ => ih (Nat.succ.inj hlength) hds).congr ?_
      rw [List.cons.injEq, List.forall_mem_cons]
      exact and_and_and_comm

/-! ## Lambdas -/

theorem lambdaSteps_of_signature_eq
    (hsignature : p.left.lambda.signature = p.right.lambda.signature) :
    lambdaSteps p = childSteps p p.left.lambda.body p.right.lambda.body := by
  rw [lambdaSteps, (Signature.mismatch?_eq_none_iff _ _).2 hsignature]

theorem lambdaSteps_of_signature_ne
    (hsignature : p.left.lambda.signature ≠ p.right.lambda.signature) :
    ∃ d, lambdaSteps p = [.report d] := by
  rw [lambdaSteps]
  cases hpart : p.left.lambda.signature.mismatch? p.right.lambda.signature with
  | none => exact absurd ((Signature.mismatch?_eq_none_iff _ _).1 hpart) hsignature
  | some part => exact ⟨_, rfl⟩

/-- Lambdas without a divergence can be read. -/
theorem read_lambda (h : Exact below reads)
    (hnone : firstWith below (lambdaSteps p) = .ok none) :
    (∃ c, readChild reads p.left p.left.lambda.body = .ok c) ∧
      ∃ d, readChild reads p.right p.right.lambda.body = .ok d := by
  by_cases hsignature : p.left.lambda.signature = p.right.lambda.signature
  · rw [lambdaSteps_of_signature_eq hsignature] at hnone
    exact h.read_child hnone
  · obtain ⟨d, hd⟩ := lambdaSteps_of_signature_ne hsignature
    rw [hd] at hnone
    simp at hnone

/-- Of lambdas that can be read it is decided whether they say the same. -/
theorem decides_lambda (h : Exact below reads) {c d : Content}
    (hl : readChild reads p.left p.left.lambda.body = .ok c)
    (hr : readChild reads p.right p.right.lambda.body = .ok d) :
    Decides below (lambdaSteps p)
      (p.left.lambda.signature = p.right.lambda.signature ∧ c = d ∧ p.Agree c) := by
  by_cases hsignature : p.left.lambda.signature = p.right.lambda.signature
  · rw [lambdaSteps_of_signature_eq hsignature]
    exact (h.decides_child hsignature hl hr).congr (and_iff_right hsignature).symm
  · obtain ⟨d, hd⟩ := lambdaSteps_of_signature_ne hsignature
    rw [hd]
    exact .report fun hall => hsignature hall.1

/-! ## Heads -/

section Head

variable {left right : NodeId} {kind kind' : NodeKind}

/-- Payloads without a divergence can be read. -/
theorem read_head (h : Exact below reads) (htag : kind.tag = kind'.tag) {steps : List Step}
    (hsteps : payloadSteps a p left right kind.payload kind'.payload = .ok steps)
    (hnone : firstWith below steps = .ok none) :
    (∃ head, a.readHead reads p.left left kind = .ok head) ∧
      ∃ head, a.readHead reads p.right right kind' = .ok head := by
  rcases NodeKind.nested_or_plain htag with ⟨l, r, hl, hr⟩ | ⟨hform, hplain⟩
  · simp only [Arena.readHead_of_nested hl, Arena.readHead_of_nested hr]
    rw [hl, hr] at hsteps
    obtain ⟨ls, rs, hls, hrs, rfl⟩ := payloadSteps_nested_eq_ok_iff.1 hsteps
    obtain ⟨⟨c, hc⟩, d, hd⟩ := h.read_lambda (firstWith_inside_eq_none_iff.1 hnone)
    exact ⟨⟨_, ls, c, hls, hc, rfl⟩, _, rs, d, hrs, hd, rfl⟩
  · simp only [Arena.readHead_of_plain hplain, Arena.readHead_of_plain (hform ▸ hplain)]
    obtain ⟨hleft, hright, -⟩ := (payloadSteps_plain_eq_ok_iff hform hplain).1 hsteps
    exact ⟨⟨_, hleft, rfl⟩, _, hright, rfl⟩

/-- Of payloads that can be read it is decided whether they say the same. -/
theorem decides_head (h : Exact below reads)
    (hsignature : p.left.lambda.signature = p.right.lambda.signature)
    (htag : kind.tag = kind'.tag) {head head' : Head}
    (hl : a.readHead reads p.left left kind = .ok head)
    (hr : a.readHead reads p.right right kind' = .ok head') :
    ∃ steps, payloadSteps a p left right kind.payload kind'.payload = .ok steps ∧
      Decides below steps (head = head' ∧ p.AgreeOn head) := by
  rcases NodeKind.nested_or_plain htag with ⟨l, r, hnested, hnested'⟩ | ⟨hform, hplain⟩
  · obtain ⟨ls, c, hls, hc, rfl⟩ := (Arena.readHead_of_nested hnested).1 hl
    obtain ⟨rs, d, hrs, hd, rfl⟩ := (Arena.readHead_of_nested hnested').1 hr
    refine ⟨(lambdaSteps ⟨ls, rs, .positional⟩).map (Step.inside ⟨left, right, l, r⟩), ?_, ?_⟩
    · rw [hnested, hnested']
      exact payloadSteps_nested_eq_ok_iff.2 ⟨ls, rs, hls, hrs, rfl⟩
    · refine (h.decides_lambda hc hd).inside.congr ?_
      -- nested lambdas are compared by place, and a closure is no capture: nothing is asked
      have hagree : Pairing.Agree ⟨ls, rs, .positional⟩ c := Pairing.agree_of_positional rfl c
      simp only [hagree, p.agreeOn_closure, Head.closure.injEq, and_true]
  · obtain ⟨hleft, rfl⟩ := (Arena.readHead_of_plain hplain).1 hl
    obtain ⟨hright, rfl⟩ := (Arena.readHead_of_plain (hform ▸ hplain)).1 hr
    refine ⟨require left right (p.payloadsMatch kind.payload kind'.payload)
      (kind.payload.mismatch kind'.payload), ?_, ?_⟩
    · exact (payloadSteps_plain_eq_ok_iff hform hplain).2 ⟨hleft, hright, rfl⟩
    · refine Decides.require.congr ?_
      rw [Pairing.payloadsMatch_iff hsignature hleft hright, Pairing.agreeOn_plain_iff,
        Head.plain.injEq, and_iff_right htag]

end Head

/-! ## Nodes -/

section Node

variable {left right : NodeId} {limit n : Nat}

/-- The steps for a pair of nodes exist once both nodes and their children
are there, and if the shapes are the same, once their payloads pass. -/
theorem pairSteps_eq_ok_iff {steps : List Step} :
    pairSteps a p left right = .ok steps ↔
      ∃ l r ls rs, p.left.node a left = .ok l ∧ p.right.node a right = .ok r ∧
        p.left.children a left l.kind = .ok ls ∧ p.right.children a right r.kind = .ok rs ∧
        ((l.kind.tag ≠ r.kind.tag ∧
            steps = require left right false (.kind l.kind.tag r.kind.tag)) ∨
          (l.kind.tag = r.kind.tag ∧ ∃ payload,
            payloadSteps a p left right l.kind.payload r.kind.payload = .ok payload ∧
            steps = payload ++ require left right (l.type == r.type) (.type l.type r.type)
              ++ require left right (ls.length == rs.length) (.childCount ls.length rs.length)
              ++ childrenSteps p ls rs)) := by
  rw [pairSteps]
  simp only [bind_eq_ok_iff, pure_eq]
  constructor
  · rintro ⟨l, hl, r, hr, ls, hls, rs, hrs, h⟩
    refine ⟨l, r, ls, rs, hl, hr, hls, hrs, ?_⟩
    by_cases htag : l.kind.tag = r.kind.tag
    · rw [if_neg (not_not_intro htag), bind_eq_ok_iff] at h
      obtain ⟨payload, hpayload, h⟩ := h
      exact .inr ⟨htag, payload, hpayload, (Except.ok.inj h).symm⟩
    · rw [if_pos htag] at h
      exact .inl ⟨htag, (Except.ok.inj h).symm⟩
  · rintro ⟨l, r, ls, rs, hl, hr, hls, hrs, h⟩
    refine ⟨l, hl, r, hr, ls, hls, rs, hrs, ?_⟩
    rcases h with ⟨htag, rfl⟩ | ⟨htag, payload, hpayload, rfl⟩
    · rw [if_pos htag]
    · rw [if_neg (not_not_intro htag), hpayload, ok_bind]

/-- Nodes without a divergence can be read. -/
theorem read_pair (h : Exact below (a.readNode limit n)) {steps : List Step}
    (hsteps : pairSteps a p left right = .ok steps) (hnone : firstWith below steps = .ok none) :
    (∃ c, a.readNode limit (n + 1) p.left left = .ok c) ∧
      ∃ d, a.readNode limit (n + 1) p.right right = .ok d := by
  obtain ⟨l, r, ls, rs, hl, hr, hls, hrs, hcases⟩ := pairSteps_eq_ok_iff.1 hsteps
  rcases hcases with ⟨-, rfl⟩ | ⟨htag, payload, hpayload, rfl⟩
  · simp [require] at hnone
  · simp only [firstWith_append_eq_none_iff, firstWith_require_eq_none_iff, beq_iff_eq] at hnone
    obtain ⟨⟨⟨hhead, -⟩, hlength⟩, hchildren⟩ := hnone
    obtain ⟨⟨head, hhead⟩, head', hhead'⟩ := h.read_head htag hpayload hhead
    obtain ⟨⟨cs, hcs⟩, ds, hds⟩ := h.read_children hlength hchildren
    simp only [Arena.readNode_succ_eq_ok_iff]
    exact ⟨⟨_, l, ls, head, cs, hl, hls, hhead, hcs, rfl⟩,
      _, r, rs, head', ds, hr, hrs, hhead', hds, rfl⟩

/-- Of nodes that can be read it is decided whether they say the same. -/
theorem decides_pair (h : Exact below (a.readNode limit n))
    (hsignature : p.left.lambda.signature = p.right.lambda.signature) {c d : Content}
    (hleft : a.readNode limit (n + 1) p.left left = .ok c)
    (hright : a.readNode limit (n + 1) p.right right = .ok d) :
    ∃ steps, pairSteps a p left right = .ok steps ∧ Decides below steps (c = d ∧ p.Agree c) := by
  obtain ⟨l, ls, head, cs, hl, hls, hhead, hcs, rfl⟩ := Arena.readNode_succ_eq_ok_iff.1 hleft
  obtain ⟨r, rs, head', ds, hr, hrs, hhead', hds, rfl⟩ := Arena.readNode_succ_eq_ok_iff.1 hright
  by_cases htag : l.kind.tag = r.kind.tag
  · obtain ⟨payload, hpayload, hdecides⟩ := h.decides_head hsignature htag hhead hhead'
    refine ⟨_, pairSteps_eq_ok_iff.2
      ⟨l, r, ls, rs, hl, hr, hls, hrs, .inr ⟨htag, payload, hpayload, rfl⟩⟩, ?_⟩
    refine (((hdecides.append fun _ => .require).append fun _ => .require).append
      fun hbefore => h.decides_children hsignature (beq_iff_eq.1 hbefore.2) hcs hds).congr ?_
    rw [Head.content_inj, Pairing.agree_content_iff, beq_iff_eq, beq_iff_eq]
    constructor
    · rintro ⟨⟨⟨⟨hheads, hagree⟩, htypes⟩, -⟩, hcontents, hagrees⟩
      exact ⟨⟨hheads, htypes, hcontents⟩, hagree, hagrees⟩
    · rintro ⟨⟨hheads, htypes, rfl⟩, hagree, hagrees⟩
      -- equally many contents were read, so there were equally many children
      have hlength : ls.length = rs.length :=
        (mapM_eq_ok_iff.1 hcs).length_eq.trans (mapM_eq_ok_iff.1 hds).length_eq.symm
      exact ⟨⟨⟨⟨hheads, hagree⟩, htypes⟩, hlength⟩, rfl, hagrees⟩
  · refine ⟨_, pairSteps_eq_ok_iff.2 ⟨l, r, ls, rs, hl, hr, hls, hrs, .inl ⟨htag, rfl⟩⟩, ?_⟩
    refine Decides.require.congr (iff_of_false Bool.false_ne_true ?_)
    rintro ⟨hcontents, -⟩
    have hheads := (Head.content_inj.1 hcontents).1
    exact htag ((Arena.tag_of_readHead hhead).symm.trans
      ((congrArg Head.tag hheads).trans (Arena.tag_of_readHead hhead')))

end Node

end Exact

/-- **A comparison decides whether what is read is the same**, whatever
levels are left for it. -/
theorem exact_pairDivergence (a : Arena) (limit n : Nat) :
    Exact (pairDivergence a limit n) (a.readNode limit n) := by
  induction n with
  | zero =>
    refine ⟨?_, ?_, ?_⟩
    · intro p l r hnone
      rw [pairDivergence_zero] at hnone
      cases hnone
    · intro p l r c d _ hl
      rw [Arena.readNode] at hl
      cases hl
    · intro s id hread
      rw [Arena.readNode] at hread
      cases hread
  | succ n ih =>
    refine ⟨?_, ?_, ?_⟩
    · intro p l r hnone
      cases hsteps : pairSteps a p l r with
      | error e =>
        rw [pairDivergence_of_steps_error hsteps] at hnone
        cases hnone
      | ok steps =>
        rw [pairDivergence_of_steps hsteps] at hnone
        exact ih.read_pair hsteps hnone
    · intro p l r c d hsignature hl hr
      obtain ⟨steps, hsteps, hdecides⟩ := ih.decides_pair hsignature hl hr
      rw [pairDivergence_of_steps hsteps]
      exact hdecides
    · intro s id hread
      obtain ⟨node, children, head, cs, -, -, -, -, hcontent⟩ :=
        Arena.readNode_succ_eq_ok_iff.1 hread
      cases head <;> cases hcontent

end LambdaSharing.Comparison
