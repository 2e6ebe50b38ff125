import LambdaSharing.Fingerprint.Pieces

/-!
# Payloads and their words

What a node holds besides its children is spelled out as a few words in the
middle of the words of the node, with nothing to say where they end. Nothing
is needed: the tag of the node, which comes first, fixes the form of the
payload (`NodeKind.form_payload`), and within a form the words themselves say
how many they are. So a payload is determined by any sequence of words that
begins with its own, and so is what follows it
(`Payload.words_append_inj`).

Nested lambdas are left out here. The words of a closure are those of the
lambda it creates, and they are as long as that lambda.
-/

namespace LambdaSharing

/-- The forms that a payload can have. -/
inductive PayloadForm where
  | none | literal | slot | symbol | nested | target | unary | binary | assign
  | declaration
deriving DecidableEq

/-- The form of a payload. -/
def Payload.form : Payload → PayloadForm
  | none => .none
  | literal _ => .literal
  | slot _ => .slot
  | symbol _ => .symbol
  | nested _ => .nested
  | target _ => .target
  | unary _ => .unary
  | binary _ => .binary
  | assign _ => .assign
  | declaration .. => .declaration

/-- The form of the payloads of a shape. -/
def NodeTag.form : NodeTag → PayloadForm
  | literal => .literal
  | var => .slot
  | field | invoke | new => .symbol
  | closure => .nested
  | instanceOf => .target
  | unary => .unary
  | binary => .binary
  | assign => .assign
  | declare => .declaration
  | this | index | cast | conditional | block | branch | loop | ret | throw => .none

/-- **The tag of a node fixes the form of its payload.** -/
theorem NodeKind.form_payload (kind : NodeKind) : kind.payload.form = kind.tag.form := by
  cases kind <;> rfl

/-- Nodes of one shape have payloads of one form. -/
theorem NodeKind.form_payload_eq {k k' : NodeKind} (h : k.tag = k'.tag) :
    k.payload.form = k'.payload.form := by
  rw [form_payload, form_payload, h]

/-- Only nested lambdas have their form. -/
theorem Payload.form_eq_nested_iff {p : Payload} : p.form = .nested ↔ ∃ l, p = .nested l := by
  cases p <;> simp [form]

/-- A payload that is no nested lambda has another form than those. -/
theorem Payload.form_ne_nested_iff {p : Payload} : p.form ≠ .nested ↔ ∀ l, p ≠ .nested l := by
  rw [ne_eq, form_eq_nested_iff, not_exists]

/-- Only closures hold a nested lambda. -/
theorem NodeKind.tag_of_nested {kind : NodeKind} {l : LambdaId} (h : kind.payload = .nested l) :
    kind.tag = .closure := by
  cases kind with
  | closure => rfl
  | _ => simp [payload] at h

/-- Kinds with lambdas for payloads have one tag. -/
theorem NodeKind.tag_eq_of_nested {kind kind' : NodeKind} {l r : LambdaId}
    (hl : kind.payload = .nested l) (hr : kind'.payload = .nested r) : kind.tag = kind'.tag :=
  (tag_of_nested hl).trans (tag_of_nested hr).symm

/-- Of two nodes of one shape both or neither hold a nested lambda, and if
neither does, their payloads are of one form. -/
theorem NodeKind.nested_or_plain {k k' : NodeKind} (h : k.tag = k'.tag) :
    (∃ l r, k.payload = .nested l ∧ k'.payload = .nested r) ∨
      (k.payload.form = k'.payload.form ∧ k.payload.form ≠ .nested) := by
  have hform := form_payload_eq h
  by_cases hnested : k.payload.form = .nested
  · obtain ⟨l, hl⟩ := Payload.form_eq_nested_iff.1 hnested
    obtain ⟨r, hr⟩ := Payload.form_eq_nested_iff.1 (hform.symm.trans hnested)
    exact .inl ⟨l, r, hl, hr⟩
  · exact .inr ⟨hform, hnested⟩

/-! ## Numbers that stand for themselves -/

/-- Tags have different numbers. -/
theorem NodeTag.code_inj {t u : NodeTag} (h : t.code = u.code) : t = u := by
  have := congrArg NodeTag.ofNat h
  rwa [code, code, ofNat_ctorIdx, ofNat_ctorIdx] at this

/-- The number of a tag is never the word of an absent child. -/
theorem NodeTag.code_ne_absentWord (t : NodeTag) : t.code ≠ Child.absentWord.toNat := by
  cases t <;> decide

/-- Operators with two operands have different numbers. -/
theorem BinaryOp.code_inj {op op' : BinaryOp} (h : op.code = op'.code) : op = op' := by
  have := congrArg BinaryOp.ofNat h
  rwa [code, code, ofNat_ctorIdx, ofNat_ctorIdx] at this

/-- Operators with one operand have different numbers. -/
theorem UnaryOp.code_inj {op op' : UnaryOp} (h : op.code = op'.code) : op = op' := by
  have := congrArg UnaryOp.ofNat h
  rwa [code, code, ofNat_ctorIdx, ofNat_ctorIdx] at this

/-- Types have different numbers. -/
theorem TypeId.toNat_index_inj {t u : TypeId} (h : t.index.toNat = u.index.toNat) : t = u := by
  cases t
  cases u
  exact congrArg TypeId.mk (UInt32.toNat_inj.1 h)

/-- Symbols have different numbers. -/
theorem SymbolId.toNat_index_inj {s t : SymbolId} (h : s.index.toNat = t.index.toNat) :
    s = t := by
  cases s
  cases t
  exact congrArg SymbolId.mk (UInt32.toNat_inj.1 h)

/-- Names have different numbers. -/
theorem Name.toNat_index_inj {n m : Name} (h : n.index.toNat = m.index.toNat) : n = m := by
  cases n
  cases m
  exact congrArg Name.mk (UInt32.toNat_inj.1 h)

/-- A slot is its kind and its number. -/
theorem Slot.eq_of_code {s t : Slot} (hk : s.kindCode = t.kindCode)
    (hn : s.number.toNat = t.number.toNat) : s = t := by
  have hn : s.number = t.number := UInt32.toNat_inj.1 hn
  cases s with
  | param i => cases t <;> simp_all [kindCode, number]
  | capture i => cases t <;> simp_all [kindCode, number]
  | «local» i => cases t <;> simp_all [kindCode, number]
  | symbol s =>
    cases t with
    | symbol t => exact congrArg symbol (SymbolId.toNat_index_inj (congrArg UInt32.toNat hn))
    | _ => simp [kindCode] at hk

/-! ## The words of a payload -/

open Fingerprint

/-- A literal is determined by its words, and so is what follows them. -/
theorem literalWords_append_inj {v w : Literal} {us vs : List Nat}
    (h : literalWords v ++ us = literalWords w ++ vs) : v = w ∧ us = vs := by
  cases v with
  | int a =>
    cases w with
    | int b =>
      simp only [literalWords, List.cons_append, List.nil_append, List.cons.injEq,
        UInt64.toNat_inj, true_and] at h
      obtain ⟨hab, rfl⟩ := h
      exact ⟨congrArg (fun u => Literal.int (Int64.ofUInt64 u)) hab, rfl⟩
    | _ => simp [literalWords] at h
  | float a => cases w <;> simp_all [literalWords, UInt64.toNat_inj]
  | bool a =>
    cases w with
    | bool b => cases a <;> cases b <;> simp_all [literalWords]
    | _ => simp [literalWords] at h
  | char a => cases w <;> simp_all [literalWords, Char.toNat_inj]
  | str a =>
    cases w with
    | str b =>
      simp only [literalWords, List.cons_append, List.nil_append, List.cons.injEq,
        true_and] at h
      obtain ⟨hab, rfl⟩ := h
      exact ⟨congrArg Literal.str (Name.toNat_index_inj hab), rfl⟩
    | _ => simp [literalWords] at h
  | null => cases w <;> simp_all [literalWords]

/-- The words of a payload that is no nested lambda. -/
def Payload.words : Payload → List Nat
  | .none | .nested _ => []
  | .literal value => literalWords value
  | .slot s => [s.kindCode, s.number.toNat]
  | .symbol s => [s.index.toNat]
  | .target t => [t.index.toNat]
  | .unary op => [op.code]
  | .binary op => [op.code]
  | .assign Option.none => [0]
  | .assign (some op) => [1, op.code]
  | .declaration s t => [s.toNat, t.index.toNat]

/-- The words of the operator of an assignment, which may be missing, are
never the beginning of other ones. -/
theorem assign_words_append_inj {op op' : Option BinaryOp} {us vs : List Nat}
    (h : (Payload.assign op).words ++ us = (Payload.assign op').words ++ vs) :
    op = op' ∧ us = vs := by
  cases op with
  | none => cases op' <;> simp_all [Payload.words]
  | some op =>
    cases op' with
    | none => simp [Payload.words] at h
    | some op' =>
      simp only [Payload.words, List.cons_append, List.nil_append, List.cons.injEq,
        true_and] at h
      obtain ⟨hop, rfl⟩ := h
      exact ⟨congrArg some (BinaryOp.code_inj hop), rfl⟩

/-- **A payload is determined by its words**, once its form is known, and so
is what follows them. -/
theorem Payload.words_append_inj {p q : Payload} {us vs : List Nat} (hform : p.form = q.form)
    (hplain : p.form ≠ .nested) (h : p.words ++ us = q.words ++ vs) : p = q ∧ us = vs := by
  cases p <;> cases q <;> simp only [form, reduceCtorEq, ne_eq, not_true_eq_false] at hform hplain
  case none.none => exact ⟨rfl, h⟩
  case literal.literal v w =>
    obtain ⟨rfl, rfl⟩ := literalWords_append_inj h
    exact ⟨rfl, rfl⟩
  case slot.slot s t =>
    simp only [words, List.cons_append, List.nil_append, List.cons.injEq] at h
    obtain ⟨hk, hn, rfl⟩ := h
    exact ⟨congrArg Payload.slot (Slot.eq_of_code hk hn), rfl⟩
  case symbol.symbol s t =>
    obtain ⟨hs, rfl⟩ := List.cons.inj h
    exact ⟨congrArg Payload.symbol (SymbolId.toNat_index_inj hs), rfl⟩
  case target.target t u =>
    obtain ⟨ht, rfl⟩ := List.cons.inj h
    exact ⟨congrArg Payload.target (TypeId.toNat_index_inj ht), rfl⟩
  case unary.unary op op' =>
    obtain ⟨hop, rfl⟩ := List.cons.inj h
    exact ⟨congrArg Payload.unary (UnaryOp.code_inj hop), rfl⟩
  case binary.binary op op' =>
    obtain ⟨hop, rfl⟩ := List.cons.inj h
    exact ⟨congrArg Payload.binary (BinaryOp.code_inj hop), rfl⟩
  case assign.assign op op' =>
    obtain ⟨rfl, rfl⟩ := assign_words_append_inj h
    exact ⟨rfl, rfl⟩
  case declaration.declaration s t s' t' =>
    simp only [words, List.cons_append, List.nil_append, List.cons.injEq] at h
    obtain ⟨hs, ht, rfl⟩ := h
    refine ⟨?_, rfl⟩
    rw [UInt32.toNat_inj.1 hs, TypeId.toNat_index_inj ht]

end LambdaSharing
