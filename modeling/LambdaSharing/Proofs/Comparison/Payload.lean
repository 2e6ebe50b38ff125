import LambdaSharing.Comparison.Steps
import LambdaSharing.Proofs.Content.Reading

/-!
# When two payloads match

Two nodes of one shape match in their payloads when these are equal. Slots
are the one exception, and only those of captures: there the captured
variables have a say. Their types never do, since bodies are compared only
after the signatures were found equal; the variables themselves do under the
policy `identity`, which asks for the same variable wherever one is used.

So what that policy asks for beyond equality is a condition on the captures
that a body uses, `Pairing.Agree`. A use is a variable of the body itself: a
nested lambda has captures of its own, but the expressions that are passed
for them are part of the body around it (`Content.Uses`).
-/

namespace LambdaSharing

open Comparison

/-! ## The captures that a body uses -/

/-- The body refers to the capture in place `i`. -/
inductive Content.Uses (i : UInt32) : Content → Prop where
  | here {tag : NodeTag} {type : TypeId} {children : List Content} :
      Uses i (.node tag (.slot (.capture i)) type children)
  | child {tag : NodeTag} {payload : Payload} {type : TypeId} {children : List Content}
      {c : Content} (mem : c ∈ children) (uses : Uses i c) :
      Uses i (.node tag payload type children)
  | capture {signature : Signature} {body : Content} {type : TypeId} {captures : List Content}
      {c : Content} (mem : c ∈ captures) (uses : Uses i c) :
      Uses i (.closure signature body type captures)

/-- A node refers to the captures that its head and its children refer to. -/
theorem Content.uses_content_iff {i : UInt32} {head : Head} {type : TypeId}
    {cs : List Content} :
    (head.content type cs).Uses i ↔
      (∃ tag, head = .plain tag (.slot (.capture i))) ∨ ∃ c ∈ cs, c.Uses i := by
  constructor
  · intro h
    cases head with
    | plain tag payload =>
      cases h with
      | here => exact .inl ⟨tag, rfl⟩
      | child mem uses => exact .inr ⟨_, mem, uses⟩
    | closure signature body =>
      cases h with
      | capture mem uses => exact .inr ⟨_, mem, uses⟩
  · rintro (⟨tag, rfl⟩ | ⟨c, mem, uses⟩)
    · exact .here
    · cases head with
      | plain tag payload => exact .child mem uses
      | closure signature body => exact .capture mem uses

/-- The variable captured in a place. -/
def Lambda.capturedVar? (l : Lambda) (i : UInt32) : Option SymbolId :=
  l.captures[i.toNat]?.map (·.var)

/-- Under the policy that asks for the same variables, both lambdas capture
the same variable in a place. -/
def Pairing.AgreeAt (p : Pairing) (i : UInt32) : Prop :=
  p.policy = .identity → p.left.lambda.capturedVar? i = p.right.lambda.capturedVar? i

/-- The two lambdas agree on the capture that a head is, if it is one. -/
def Pairing.AgreeOn (p : Pairing) (head : Head) : Prop :=
  ∀ tag i, head = .plain tag (.slot (.capture i)) → p.AgreeAt i

/-- The two lambdas agree on the captures that a content refers to. -/
def Pairing.Agree (p : Pairing) (c : Content) : Prop :=
  ∀ i, c.Uses i → p.AgreeAt i

/-- Nothing is asked of captures that are compared by place. -/
theorem Pairing.agreeAt_of_positional {p : Pairing} (h : p.policy = .positional) (i : UInt32) :
    p.AgreeAt i := by
  intro hi
  rw [h] at hi
  cases hi

/-- So lambdas whose captures are compared by place agree on every content. -/
theorem Pairing.agree_of_positional {p : Pairing} (h : p.policy = .positional) (c : Content) :
    p.Agree c :=
  fun i _ => agreeAt_of_positional h i

/-- Nothing refers to a capture where nothing is. -/
theorem Pairing.agree_absent (p : Pairing) : p.Agree .absent := by
  intro i h
  cases h

/-- A head that is no closure is a capture if its payload is one. -/
theorem Pairing.agreeOn_plain_iff {p : Pairing} {tag : NodeTag} {payload : Payload} :
    p.AgreeOn (.plain tag payload) ↔ ∀ i, payload = .slot (.capture i) → p.AgreeAt i := by
  constructor
  · rintro h i rfl
    exact h tag i rfl
  · rintro h tag i ⟨⟩
    exact h i rfl

/-- A closure is no capture. -/
theorem Pairing.agreeOn_closure (p : Pairing) (signature : Signature) (body : Content) :
    p.AgreeOn (.closure signature body) := by
  rintro tag i ⟨⟩

/-- The lambdas agree on a node if they do on its head and its children. -/
theorem Pairing.agree_content_iff {p : Pairing} {head : Head} {type : TypeId}
    {cs : List Content} :
    p.Agree (head.content type cs) ↔ p.AgreeOn head ∧ ∀ c ∈ cs, p.Agree c := by
  constructor
  · intro h
    refine ⟨?_, ?_⟩
    · rintro tag i rfl
      exact h i (Content.uses_content_iff.2 (.inl ⟨tag, rfl⟩))
    · intro c hc i hi
      exact h i (Content.uses_content_iff.2 (.inr ⟨c, hc, hi⟩))
  · rintro ⟨hhead, hcs⟩ i hi
    rcases Content.uses_content_iff.1 hi with ⟨tag, rfl⟩ | ⟨c, hc, hi⟩
    · exact hhead tag i rfl
    · exact hcs c hc i hi

/-! ## Matching slots -/

/-- Captures in a place match if they are there, are of one type, and are
the same variable where the policy asks for it. -/
theorem Binding.capturesMatch_eq_true_iff {b : Binding} {i : UInt32} :
    b.capturesMatch i = true ↔
      ∃ l r, b.left.captures[i.toNat]? = some l ∧ b.right.captures[i.toNat]? = some r ∧
        l.type = r.type ∧ (b.policy = .identity → l.var = r.var) := by
  unfold capturesMatch
  cases b.left.captures[i.toNat]? with
  | none => simp
  | some l =>
    cases b.right.captures[i.toNat]? with
    | none => simp
    | some r => cases b.policy <;> simp

/-- Slots that match are equal, and captures agree besides. -/
theorem Pairing.eq_of_slotsMatch {p : Pairing} {s t : Slot}
    (h : p.binding.slotsMatch s t = true) : s = t ∧ ∀ i, s = .capture i → p.AgreeAt i := by
  cases s with
  | capture i =>
    cases t with
    | capture j =>
      rw [Binding.slotsMatch, Bool.and_eq_true, beq_iff_eq] at h
      obtain ⟨rfl, h⟩ := h
      obtain ⟨l, r, hl, hr, -, hvar⟩ := Binding.capturesMatch_eq_true_iff.1 h
      refine ⟨rfl, ?_⟩
      rintro _ ⟨⟩ hpolicy
      show (p.left.lambda.captures[i.toNat]?).map _ = (p.right.lambda.captures[i.toNat]?).map _
      rw [show p.left.lambda.captures[i.toNat]? = some l from hl,
        show p.right.lambda.captures[i.toNat]? = some r from hr, Option.map_some,
        Option.map_some, hvar hpolicy]
    | _ => simp [Binding.slotsMatch] at h
  | _ => cases t <;> simp_all [Binding.slotsMatch]

/-- A slot of both lambdas matches itself if their signatures are equal and
they agree on it. -/
theorem Pairing.slotsMatch_self {p : Pairing} {left right : NodeId} {s : Slot}
    (hsignature : p.left.lambda.signature = p.right.lambda.signature)
    (hleft : p.left.checkSlot left s = .ok ()) (hright : p.right.checkSlot right s = .ok ())
    (hagree : ∀ i, s = .capture i → p.AgreeAt i) : p.binding.slotsMatch s s = true := by
  cases s with
  | capture i =>
    rw [Binding.slotsMatch, beq_self_eq_true, Bool.true_and, Binding.capturesMatch_eq_true_iff]
    have hl : i.toNat < p.left.lambda.captures.length :=
      Scope.checkSlot_eq_ok_iff.1 hleft _ rfl
    have hr : i.toNat < p.right.lambda.captures.length :=
      Scope.checkSlot_eq_ok_iff.1 hright _ rfl
    refine ⟨_, _, List.getElem?_eq_getElem hl, List.getElem?_eq_getElem hr, ?_, ?_⟩
    · have htypes := congrArg (·[i.toNat]?) (congrArg Signature.captures hsignature)
      simpa [Lambda.signature, hl, hr] using htypes
    · intro hpolicy
      have hvars := hagree i rfl hpolicy
      simpa [Lambda.capturedVar?, hl, hr] using hvars
  | _ => simp [Binding.slotsMatch]

/-! ## Matching payloads -/

/-- Whether two payloads other than nested lambdas match. -/
def Pairing.payloadsMatch (p : Pairing) : Payload → Payload → Bool
  | .slot s, .slot t => p.binding.slotsMatch s t
  | l, r => l == r

/-- Payloads that wrap one thing each match if the things are equal. -/
theorem Payload.beq_eq_of_injective {α : Type} [BEq α] [LawfulBEq α] {wrap : α → Payload}
    (hwrap : ∀ x y, wrap x = wrap y → x = y) (x y : α) : (wrap x == wrap y) = (x == y) := by
  rw [Bool.eq_iff_iff, beq_iff_eq, beq_iff_eq]
  exact ⟨hwrap x y, congrArg wrap⟩

/-- In what two payloads of one form differ that do not match. For lambdas
that closures create this is not said here, and payloads that the shape says
everything about never differ. -/
def Payload.mismatch : Payload → Payload → DivergenceReason
  | .slot s, .slot t => .slot s t
  | .symbol _, .symbol _ => .symbol
  | .target t, .target u => .type t u
  | .unary _, .unary _ | .binary _, .binary _ | .assign _, .assign _ => .operator
  | .declaration .., .declaration .. => .declaration
  | _, _ => .literal

/-- **Payloads of one form are checked, and then they must match.** -/
theorem payloadSteps_of_plain {a : Arena} {p : Pairing} {left right : NodeId} {l r : Payload}
    (hform : l.form = r.form) (hplain : l.form ≠ .nested) :
    payloadSteps a p left right l r = (do
      p.left.checkPayload left l
      p.right.checkPayload right r
      return require left right (p.payloadsMatch l r) (l.mismatch r)) := by
  -- everything but a slot holds data that is compared as it is
  have hbeq {α : Type} [BEq α] [LawfulBEq α] {wrap : α → Payload} (x y : α)
      (hwrap : ∀ x y, wrap x = wrap y → x = y) (reason : DivergenceReason) :
      require left right (x == y) reason = require left right (wrap x == wrap y) reason := by
    rw [Payload.beq_eq_of_injective hwrap]
  cases l <;> cases r <;>
    simp only [Payload.form, reduceCtorEq, ne_eq, not_true_eq_false] at hform hplain
  case none.none => rfl
  case slot.slot s t => rfl
  case literal.literal v w =>
    exact congrArg Except.ok (hbeq v w (fun _ _ => Payload.literal.inj) _)
  case symbol.symbol s t =>
    exact congrArg Except.ok (hbeq s t (fun _ _ => Payload.symbol.inj) _)
  case target.target t u =>
    exact congrArg Except.ok (hbeq t u (fun _ _ => Payload.target.inj) _)
  case unary.unary o o' =>
    exact congrArg Except.ok (hbeq o o' (fun _ _ => Payload.unary.inj) _)
  case binary.binary o o' =>
    exact congrArg Except.ok (hbeq o o' (fun _ _ => Payload.binary.inj) _)
  case assign.assign o o' =>
    exact congrArg Except.ok (hbeq o o' (fun _ _ => Payload.assign.inj) _)
  case declaration.declaration s t s' t' =>
    have hmatch : p.payloadsMatch (.declaration s t) (.declaration s' t') =
        (s == s' && t == t') := by
      rw [Bool.eq_iff_iff]
      simp [Pairing.payloadsMatch]
    rw [hmatch]
    rfl

/-- The steps for payloads of one form exist if both payloads pass. -/
theorem payloadSteps_plain_eq_ok_iff {a : Arena} {p : Pairing} {left right : NodeId}
    {l r : Payload} {steps : List Step} (hform : l.form = r.form) (hplain : l.form ≠ .nested) :
    payloadSteps a p left right l r = .ok steps ↔
      p.left.checkPayload left l = .ok () ∧ p.right.checkPayload right r = .ok () ∧
        steps = require left right (p.payloadsMatch l r) (l.mismatch r) := by
  rw [payloadSteps_of_plain hform hplain]
  simp only [bind_eq_ok_iff, pure_eq, Except.ok.injEq]
  constructor
  · rintro ⟨_, hleft, _, hright, rfl⟩
    exact ⟨hleft, hright, rfl⟩
  · rintro ⟨hleft, hright, rfl⟩
    exact ⟨(), hleft, (), hright, rfl⟩

/-- The steps for nested lambdas exist if both lambdas are registered. -/
theorem payloadSteps_nested_eq_ok_iff {a : Arena} {p : Pairing} {left right : NodeId}
    {l r : LambdaId} {steps : List Step} :
    payloadSteps a p left right (.nested l) (.nested r) = .ok steps ↔
      ∃ ls rs, a.scope l = .ok ls ∧ a.scope r = .ok rs ∧
        steps = (lambdaSteps ⟨ls, rs, .positional⟩).map (Step.inside ⟨left, right, l, r⟩) := by
  rw [payloadSteps]
  simp only [bind_eq_ok_iff, pure_eq, Except.ok.injEq]
  constructor
  · rintro ⟨ls, hls, rs, hrs, rfl⟩
    exact ⟨ls, rs, hls, hrs, rfl⟩
  · rintro ⟨ls, rs, hls, hrs, rfl⟩
    exact ⟨ls, hls, rs, hrs, rfl⟩

/-- Payloads that match are equal, and captures agree besides. -/
theorem Pairing.eq_of_payloadsMatch {p : Pairing} {l r : Payload}
    (h : p.payloadsMatch l r = true) :
    l = r ∧ ∀ i, l = .slot (.capture i) → p.AgreeAt i := by
  rw [payloadsMatch.eq_def] at h
  split at h
  · obtain ⟨rfl, hagree⟩ := eq_of_slotsMatch h
    refine ⟨rfl, ?_⟩
    rintro i ⟨⟩
    exact hagree i rfl
  · rename_i hslots
    obtain rfl := beq_iff_eq.1 h
    refine ⟨rfl, ?_⟩
    rintro i rfl
    exact absurd rfl (hslots _ _ rfl)

/-- A payload that both lambdas can have matches itself if their signatures
are equal and they agree on it. -/
theorem Pairing.payloadsMatch_self {p : Pairing} {left right : NodeId} {l : Payload}
    (hsignature : p.left.lambda.signature = p.right.lambda.signature)
    (hleft : p.left.checkPayload left l = .ok ()) (hright : p.right.checkPayload right l = .ok ())
    (hagree : ∀ i, l = .slot (.capture i) → p.AgreeAt i) : p.payloadsMatch l l = true := by
  rw [payloadsMatch.eq_def]
  split
  · exact slotsMatch_self hsignature hleft hright fun i hi => hagree i (congrArg Payload.slot hi)
  · exact beq_self_eq_true l

/-- **Payloads that both lambdas can have match if they are equal** and the
lambdas agree on them. -/
theorem Pairing.payloadsMatch_iff {p : Pairing} {left right : NodeId} {l r : Payload}
    (hsignature : p.left.lambda.signature = p.right.lambda.signature)
    (hleft : p.left.checkPayload left l = .ok ())
    (hright : p.right.checkPayload right r = .ok ()) :
    p.payloadsMatch l r = true ↔ l = r ∧ ∀ i, l = .slot (.capture i) → p.AgreeAt i := by
  constructor
  · exact eq_of_payloadsMatch
  · rintro ⟨rfl, hagree⟩
    exact payloadsMatch_self hsignature hleft hright hagree

end LambdaSharing
