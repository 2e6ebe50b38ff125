import LambdaSharing.Fingerprint.Hasher
import LambdaSharing.Proofs.Content.Reading

/-!
# A fingerprint spells out what is read

The words that go into a fingerprint are listed node by node, from positions
in an arena. They depend on the content only: to list them is to read the
content, in the same order and with the same faults, and to spell it out
(`lambdaWords_eq`, `bodyWords_eq`). From this everything about fingerprints
follows that does not look at the mixing of the words: when there is one,
which fault there is instead, and which lambdas cannot be told apart by it.

The words are also those that the loop hands on one by one while it runs
(`Arena.handedWords_eq`): the loop does not care what takes them in, and run
with a state that only records them it comes back with the same list.
-/

namespace LambdaSharing

open Fingerprint

/-! ## Contents by head and children -/

/-- The words of a head, which come before type and children. -/
def Head.words : Head → List Nat
  | plain tag payload => tag.code :: payload.words
  | closure signature body => NodeTag.closure.code :: (signatureWords signature ++ body.words)

/-- The words of a content are those of its head, then its type, the number
of its children and the children themselves. -/
theorem Head.words_content (head : Head) (type : TypeId) (cs : List Content) :
    (head.content type cs).words =
      head.words ++ type.index.toNat :: cs.length :: Content.listWords cs := by
  cases head <;> rfl

/-! ## The words of one node -/

section Node

variable {a : Arena} {s : Scope} {id : NodeId} {below : Scope → NodeId → Except Fault Content}

/-- The words of a node that was read. -/
def spelled (below : Scope → NodeId → Except Fault Content) (s : Scope) (id : NodeId) :
    Except Fault (List Nat) :=
  (below s id).map Content.words

/-- The words of a child are those of what is read there. -/
theorem wordsWith_childPiece (s : Scope) (c : Child) :
    wordsWith (spelled below) [childPiece s c] = (readChild below s c).map Content.words := by
  cases c with
  | none => rfl
  | some id =>
    rw [readChild_some, childPiece, wordsWith, spelled]
    cases below s id <;> simp

/-- The words of several children are those of what is read there. -/
theorem wordsWith_children (s : Scope) (children : List Child) :
    wordsWith (spelled below) (children.map (childPiece s)) =
      (children.mapM (readChild below s)).map Content.listWords := by
  induction children with
  | nil => rfl
  | cons c children ih =>
    rw [List.map_cons, ← List.singleton_append, wordsWith_append, wordsWith_childPiece, ih,
      List.mapM_cons]
    cases readChild below s c with
    | error e => rfl
    | ok content => cases children.mapM (readChild below s) <;> rfl

/-- The words of a lambda's pieces are those of its signature and of what is
read of its body. -/
theorem wordsWith_lambdaPieces (s : Scope) :
    wordsWith (spelled below) (lambdaPieces s) =
      (readChild below s s.lambda.body).map fun body =>
        signatureWords s.lambda.signature ++ body.words := by
  rw [lambdaPieces, wordsWith_append, wordsWith_asPieces, wordsWith_childPiece]
  cases readChild below s s.lambda.body <;> rfl

/-- The pieces of a payload that is no nested lambda are its words, once it
has passed its check. -/
theorem payloadPieces_of_plain {payload : Payload} (h : ∀ l, payload ≠ .nested l) :
    payloadPieces a s id payload =
      (s.checkPayload id payload).map fun _ => asPieces payload.words := by
  cases payload with
  | nested l => exact absurd rfl (h l)
  | slot slot =>
    rw [payloadPieces, Scope.checkPayload]
    cases s.checkSlot id slot <;> rfl
  | declaration slot type =>
    rw [payloadPieces, Scope.checkPayload]
    cases s.checkLocal id slot <;> rfl
  | assign op => cases op <;> rfl
  | _ => rfl

/-- Tag and payload of a node come to the words of the head that is read. -/
theorem wordsWith_head (kind : NodeKind) :
    (do
      let pieces ← payloadPieces a s id kind.payload
      wordsWith (spelled below) (.word kind.tag.code :: pieces)) =
      (a.readHead below s id kind).map Head.words := by
  unfold Arena.readHead
  split
  · rename_i l hl
    rw [hl, payloadPieces, NodeKind.tag_of_nested hl]
    cases a.scope l with
    | error e => rfl
    | ok inner =>
      simp only [ok_bind, pure_eq, wordsWith, wordsWith_lambdaPieces]
      cases readChild below inner inner.lambda.body <;> rfl
  · rename_i payload hplain
    rw [payloadPieces_of_plain hplain]
    cases s.checkPayload id kind.payload with
    | error e => rfl
    | ok _ =>
      simp only [map_ok, ok_bind, pure_eq, wordsWith, wordsWith_asPieces]
      rfl

end Node

/-! ## The words of a body -/

/-- The words of type and children come after those of the head. -/
theorem wordsWith_rest {below : Scope → NodeId → Except Fault Content} {s : Scope}
    (type : TypeId) (children : List Child) :
    wordsWith (spelled below) (.word type.index.toNat :: .word children.length
        :: children.map (childPiece s)) =
      (children.mapM (readChild below s)).map fun cs =>
        type.index.toNat :: cs.length :: Content.listWords cs := by
  rw [wordsWith, wordsWith, wordsWith_children]
  cases hcs : children.mapM (readChild below s) with
  | error e => rfl
  | ok cs =>
    have hlen := (mapM_eq_ok_iff.1 hcs).length_eq
    simp only [map_ok, ok_bind, pure_eq, hlen]

/-- The words of a node are those of the content that is read, if that holds
of the nodes below. -/
theorem wordsWith_nodePieces {a : Arena} {s : Scope} {id : NodeId}
    {below : Scope → NodeId → Except Fault Content} :
    (nodePieces a s id >>= wordsWith (spelled below)) = (do
      let node ← s.node a id
      let children ← s.children a id node.kind
      let head ← a.readHead below s id node.kind
      let cs ← children.mapM (readChild below s)
      return (head.content node.type cs).words) := by
  unfold nodePieces
  cases s.node a id with
  | error e => rfl
  | ok node =>
    cases hchildren : s.children a id node.kind with
    | error e => simp only [ok_bind, error_bind, hchildren]
    | ok children =>
      have hhead := @wordsWith_head a s id below node.kind
      cases hpayload : payloadPieces a s id node.kind.payload with
      | error e =>
        rw [hpayload, error_bind] at hhead
        cases hread : a.readHead below s id node.kind with
        | error e' =>
          rw [hread, map_error] at hhead
          simp only [ok_bind, error_bind, hchildren, hpayload, hread, Except.error.inj hhead]
        | ok head => simp [hread] at hhead
      | ok payload =>
        simp only [ok_bind, pure_eq, hchildren, hpayload, wordsWith_append, wordsWith_rest]
          at hhead ⊢
        rw [hhead]
        cases a.readHead below s id node.kind with
        | error e => rfl
        | ok head =>
          cases children.mapM (readChild below s) with
          | error e => rfl
          | ok cs => simp only [map_ok, ok_bind, Head.words_content]

/-- **The words of a node are those of the content that is read there.** -/
theorem nodeWords_eq (a : Arena) (limit n : Nat) :
    nodeWords a limit n = spelled (a.readNode limit n) := by
  induction n with
  | zero => rfl
  | succ n ih =>
    funext s id
    rw [nodeWords, ih, wordsWith_nodePieces, spelled, Arena.readNode]
    cases s.node a id with
    | error e => rfl
    | ok node =>
      cases hchildren : s.children a id node.kind with
      | error e => simp only [ok_bind, error_bind, hchildren, map_error]
      | ok children =>
        simp only [ok_bind, hchildren, pure_eq, map_of_bind, map_ok]

/-- **The words of a lambda are those of the content that is read of it.** -/
theorem lambdaWords_eq (a : Arena) (limit : Nat) (l : LambdaId) :
    lambdaWords a limit l = (a.readLambda limit l).map LambdaContent.words := by
  rw [lambdaWords, Arena.readLambda]
  cases a.scope l with
  | error e => rfl
  | ok s =>
    rw [ok_bind, ok_bind, pieceWords, nodeWords_eq, wordsWith_lambdaPieces]
    cases readChild (a.readNode limit limit) s s.lambda.body <;> rfl

/-- The words of a lambda's body are those of the body that is read. -/
theorem bodyWords_eq (a : Arena) (limit : Nat) (l : LambdaId) :
    bodyWords a limit l = (a.readLambda limit l).map fun c => c.body.words := by
  rw [bodyWords, Arena.readLambda]
  cases a.scope l with
  | error e => rfl
  | ok s =>
    rw [ok_bind, ok_bind, pieceWords, nodeWords_eq, wordsWith_childPiece]
    cases readChild (a.readNode limit limit) s s.lambda.body <;> rfl

namespace Arena

/-! ## Fingerprints -/

/-- The fingerprint of a lambda is mixed from the words of what is read. -/
theorem lambdaHash_eq_of_read (a : Arena) (limit : Nat) (l : LambdaId) :
    a.lambdaHash limit l = (a.readLambda limit l).map fun c => ofWords c.words := by
  rw [lambdaHash_eq, lambdaWords_eq]
  cases a.readLambda limit l <;> rfl

/-- The fingerprint of a body is mixed from the words of what is read. -/
theorem bodyHash_eq_of_read (a : Arena) (limit : Nat) (l : LambdaId) :
    a.bodyHash limit l = (a.readLambda limit l).map fun c => ofWords c.body.words := by
  rw [bodyHash_eq, bodyWords_eq]
  cases a.readLambda limit l <;> rfl

/-- The fingerprint of a signature is mixed from the words of the signature
that is read. -/
theorem signatureHash_of_read {a : Arena} {limit : Nat} {l : LambdaId} {c : LambdaContent}
    (h : a.readLambda limit l = .ok c) (hasher : Hasher) :
    (hasher.signatureHash a l).1 = .ok (ofWords (signatureWords c.signature)) := by
  obtain ⟨s, hs, hsignature, -⟩ := readLambda_eq_ok_iff.1 h
  rw [Hasher.signatureHash, hs, ← hsignature]

/-- The fingerprint of a lambda with given words. -/
theorem lambdaHash_of_words {a : Arena} {limit : Nat} {l : LambdaId} {words : List Nat}
    (h : lambdaWords a limit l = .ok words) : a.lambdaHash limit l = .ok (ofWords words) := by
  rw [lambdaHash_eq, h, map_ok]

/-- A lambda has a fingerprint exactly if its content can be read, and then
the fingerprint is mixed from the words of the content. -/
theorem lambdaHash_eq_ok_iff {a : Arena} {limit : Nat} {l : LambdaId} {hash : UInt64} :
    a.lambdaHash limit l = .ok hash ↔
      ∃ c, a.readLambda limit l = .ok c ∧ ofWords c.words = hash := by
  rw [lambdaHash_eq_of_read, map_eq_ok_iff]

/-- The words of a lambda as the loop hands them on, one by one, while it
computes a fingerprint. -/
def handedWords (a : Arena) (limit : Nat) (l : LambdaId) : Except Fault (List Nat) := do
  let s ← a.scope l
  (drive (fun words w => words ++ [w]) a [] (lambdaPieces s) [] (.new limit)).1

/-- Words that are recorded one by one are the words. -/
theorem foldl_record (words before : List Nat) :
    words.foldl (fun words w => words ++ [w]) before = before ++ words := by
  induction words generalizing before with
  | nil => rw [List.foldl_nil, List.append_nil]
  | cons w words ih => rw [List.foldl_cons, ih, List.append_assoc, List.singleton_append]

/-- The loop hands on the words of what is read. -/
theorem handedWords_eq (a : Arena) (limit : Nat) (l : LambdaId) :
    a.handedWords limit l = (a.readLambda limit l).map LambdaContent.words := by
  rw [← lambdaWords_eq, handedWords, lambdaWords]
  cases a.scope l with
  | error e => rfl
  | ok s =>
    rw [ok_bind, ok_bind, drive_eq]
    simp only [Budget.new, Budget.remaining, Nat.sub_zero]
    cases pieceWords a limit limit (lambdaPieces s) with
    | error e => rfl
    | ok words =>
      show Except.ok (words.foldl (fun words w => words ++ [w]) []) = .ok words
      rw [foldl_record, List.nil_append]

end Arena

end LambdaSharing
