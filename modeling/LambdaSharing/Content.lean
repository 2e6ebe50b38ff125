import LambdaSharing.Arena.Basic

/-!
# Contents

Where a node is stored says nothing about the program. An arena may hold the
same expression many times, or use one node in many places, and the numbers
of nested lambdas follow the order of their registration. What a place in a
body says, apart from all that, is its **content**: the finite tree that one
reads by following the children from there, with every closure replaced by
the content of the lambda it creates. Positions, numbers of lambdas, owners,
spans and captured variables do not occur in it.

A body that reaches itself has no content, and neither has one that leads out
of the arena. `Arena.content?` therefore reads down to a given number of
levels. More levels never change what was read (`content?_of_le`), so a place
has at most one content, however deep one looks (`HasContent.unique`).
-/

namespace LambdaSharing

/-- What a place in a body says. -/
inductive Content where
  /-- Nothing is there. -/
  | absent
  /-- A node that is not a closure. -/
  | node (tag : NodeTag) (payload : Payload) (type : TypeId) (children : List Content)
  /-- A closure: what its lambda is, and the expressions passed for the
  captures. -/
  | closure (signature : Signature) (body : Content) (type : TypeId) (captures : List Content)

/-- What a lambda says. -/
structure LambdaContent where
  /-- What its callers see. -/
  signature : Signature
  /-- What its body says. -/
  body : Content

namespace Arena

/-- The content of a place, read down to `n` levels. -/
def content? (a : Arena) : Nat → Child → Option Content
  | _, none => some .absent
  | 0, some _ => none
  | n + 1, some id => do
    let node ← a.node? id
    let children ← (← a.children? node.kind).mapM (a.content? n)
    match node.kind.payload with
    | .nested l =>
      let lambda ← a.lambda? l
      return .closure lambda.signature (← a.content? n lambda.body) node.type children
    | payload => return .node node.kind.tag payload node.type children

/-- The content of a place, however deep. -/
def HasContent (a : Arena) (place : Child) (c : Content) : Prop :=
  ∃ n, a.content? n place = some c

/-- The content of a lambda: its signature, and what its body says. -/
def HasLambdaContent (a : Arena) (l : LambdaId) (c : LambdaContent) : Prop :=
  ∃ lambda, a.lambda? l = some lambda ∧ lambda.signature = c.signature ∧
    a.HasContent lambda.body c.body

/-- What is read from each of a list of places does not change if what is
read from a place does not. -/
theorem mapM_eq_some_of_imp {f g : Child → Option Content} {places : List Child}
    {cs : List Content} (h : ∀ place c, f place = some c → g place = some c)
    (hf : places.mapM f = some cs) : places.mapM g = some cs := by
  induction places generalizing cs with
  | nil => exact hf
  | cons place places ih =>
    simp only [List.mapM_cons, Option.bind_eq_bind, Option.bind_eq_some_iff] at hf ⊢
    obtain ⟨c, hc, rest, hrest, hcs⟩ := hf
    exact ⟨c, h place c hc, rest, ih hrest, hcs⟩

/-- One more level does not change what is read. -/
theorem content?_succ {a : Arena} {n : Nat} {place : Child} {c : Content}
    (h : a.content? n place = some c) : a.content? (n + 1) place = some c := by
  induction n generalizing place c with
  | zero =>
    cases place with
    | none => exact h
    | some id => simp [content?] at h
  | succ n ih =>
    cases place with
    | none => exact h
    | some id =>
      rw [content?] at h ⊢
      simp only [Option.bind_eq_bind, Option.bind_eq_some_iff] at h ⊢
      obtain ⟨node, hnode, places, hplaces, children, hchildren, hc⟩ := h
      refine ⟨node, hnode, places, hplaces, children,
        mapM_eq_some_of_imp (fun _ _ => ih) hchildren, ?_⟩
      split at hc
      · simp only [Option.bind_eq_some_iff] at hc ⊢
        obtain ⟨lambda, hlambda, body, hbody, hc⟩ := hc
        exact ⟨lambda, hlambda, body, ih hbody, hc⟩
      · exact hc

/-- More levels do not change what is read. -/
theorem content?_of_le {a : Arena} {n m : Nat} {place : Child} {c : Content} (hle : n ≤ m)
    (h : a.content? n place = some c) : a.content? m place = some c := by
  induction hle with
  | refl => exact h
  | step _ ih => exact content?_succ ih

/-- A place has at most one content. -/
theorem HasContent.unique {a : Arena} {place : Child} {c d : Content}
    (hc : a.HasContent place c) (hd : a.HasContent place d) : c = d := by
  obtain ⟨n, hn⟩ := hc
  obtain ⟨m, hm⟩ := hd
  have hn := content?_of_le (Nat.le_max_left n m) hn
  have hm := content?_of_le (Nat.le_max_right n m) hm
  exact Option.some.inj (hn.symm.trans hm)

/-- A lambda has at most one content. -/
theorem HasLambdaContent.unique {a : Arena} {l : LambdaId} {c d : LambdaContent}
    (hc : a.HasLambdaContent l c) (hd : a.HasLambdaContent l d) : c = d := by
  obtain ⟨lambda, hl, hs, hb⟩ := hc
  obtain ⟨_, hl', hs', hb'⟩ := hd
  obtain rfl := Option.some.inj (hl.symm.trans hl')
  cases c
  cases d
  rw [LambdaContent.mk.injEq]
  exact ⟨hs.symm.trans hs', hb.unique hb'⟩

end Arena

end LambdaSharing
