import LambdaSharing.Content
import LambdaSharing.Proofs.Content.Payload

/-!
# The words of a content

A content can be spelled out in the same way as the node it is read from:
tag, payload, type, number of children, and then the children in turn, an
absent one as the word that no tag has. A closure has the signature and the
body of its lambda in the place of a payload.

There is nothing between these parts, and the words of a closure hold a whole
body in the middle. Still nothing can be read in two ways. What comes first
is a tag or the word of an absent child; the tag says which payload follows;
lists are preceded by their length; and a body is delimited because, by the
same argument one level further down, a content is.
`Content.WellFormed.words_append_inj` puts this together: **a content is
determined by any sequence of words that begins with its own.**

That needs a tag and a payload that belong together, which the type of
contents does not ask for. `Content.WellFormed` does, and whatever is read
from an arena has it (`Arena.wellFormed_of_content?`).
-/

namespace LambdaSharing

open Fingerprint

/-! ## Well-formed contents -/

/-- Every payload has the form that its tag asks for. -/
inductive Content.WellFormed : Content → Prop where
  | absent : WellFormed .absent
  | node {tag : NodeTag} {payload : Payload} {type : TypeId} {children : List Content}
      (form : payload.form = tag.form) (plain : payload.form ≠ .nested)
      (children_wf : ∀ c ∈ children, WellFormed c) :
      WellFormed (.node tag payload type children)
  | closure {signature : Signature} {body : Content} {type : TypeId} {captures : List Content}
      (body_wf : WellFormed body) (captures_wf : ∀ c ∈ captures, WellFormed c) :
      WellFormed (.closure signature body type captures)

/-- What is read from each of a list of places is read from one of them. -/
theorem exists_of_mem_mapM {f : Child → Option Content} {places : List Child}
    {cs : List Content} (h : places.mapM f = some cs) {c : Content} (hc : c ∈ cs) :
    ∃ place, f place = some c := by
  induction places generalizing cs with
  | nil =>
    obtain rfl : [] = cs := by simpa using h
    exact absurd hc List.not_mem_nil
  | cons place places ih =>
    simp only [List.mapM_cons, Option.bind_eq_bind, Option.bind_eq_some_iff] at h
    obtain ⟨d, hd, rest, hrest, hcs⟩ := h
    obtain rfl : d :: rest = cs := by simpa using hcs
    rcases List.mem_cons.1 hc with rfl | hc
    · exact ⟨place, hd⟩
    · exact ih hrest hc

/-- **What is read from an arena is well formed.** -/
theorem Arena.wellFormed_of_content? {a : Arena} {n : Nat} {place : Child} {c : Content}
    (h : a.content? n place = some c) : c.WellFormed := by
  induction n generalizing place c with
  | zero =>
    cases place with
    | none =>
      obtain rfl := Option.some.inj h
      exact .absent
    | some id => simp [content?] at h
  | succ n ih =>
    cases place with
    | none =>
      obtain rfl := Option.some.inj h
      exact .absent
    | some id =>
      unfold content? at h
      simp only [Option.bind_eq_bind, Option.bind_eq_some_iff] at h
      obtain ⟨node, -, places, -, children, hchildren, hc⟩ := h
      have hwf : ∀ c ∈ children, c.WellFormed := by
        intro c hc
        obtain ⟨place, hplace⟩ := exists_of_mem_mapM hchildren hc
        exact ih hplace
      split at hc
      · simp only [Option.bind_eq_some_iff] at hc
        obtain ⟨lambda, -, body, hbody, hc⟩ := hc
        obtain rfl := Option.some.inj hc
        exact .closure (ih hbody) hwf
      · rename_i payload hplain
        obtain rfl := Option.some.inj hc
        exact .node node.kind.form_payload (Payload.form_ne_nested_iff.2 hplain) hwf

/-- The content of a place is well formed. -/
theorem Arena.HasContent.wellFormed {a : Arena} {place : Child} {c : Content}
    (h : a.HasContent place c) : c.WellFormed := by
  obtain ⟨n, hn⟩ := h
  exact wellFormed_of_content? hn

/-! ## Spelling -/

mutual

/-- The words of a content. -/
def Content.words : Content → List Nat
  | .absent => [Child.absentWord.toNat]
  | .node tag payload type children =>
    tag.code :: payload.words
      ++ type.index.toNat :: children.length :: Content.listWords children
  | .closure signature body type captures =>
    NodeTag.closure.code :: (signatureWords signature ++ body.words)
      ++ type.index.toNat :: captures.length :: Content.listWords captures

/-- The words of several contents, one after the other. -/
def Content.listWords : List Content → List Nat
  | [] => []
  | c :: cs => c.words ++ Content.listWords cs

end

/-- The words of a lambda's content: its signature, then its body. -/
def LambdaContent.words (c : LambdaContent) : List Nat :=
  signatureWords c.signature ++ c.body.words

/-! ## Unique reading -/

/-- A list of types is determined by its words, and so is what follows. -/
theorem typeWords_append_inj {ts us : List TypeId} {xs ys : List Nat}
    (h : typeWords ts ++ xs = typeWords us ++ ys) : ts = us ∧ xs = ys := by
  obtain ⟨hlen, h⟩ := List.cons.inj h
  obtain ⟨hts, hxs⟩ := List.append_inj h (by rw [List.length_map, List.length_map, hlen])
  refine ⟨?_, hxs⟩
  exact (List.map_inj_right fun _ _ => TypeId.toNat_index_inj).1 hts

/-- A signature is determined by its words, and so is what follows. -/
theorem signatureWords_append_inj {s t : Signature} {xs ys : List Nat}
    (h : signatureWords s ++ xs = signatureWords t ++ ys) : s = t ∧ xs = ys := by
  cases s
  cases t
  simp only [signatureWords, List.cons_append, List.append_assoc, List.cons.injEq] at h
  obtain ⟨htarget, hparams⟩ := h
  obtain ⟨rfl, hcaptures⟩ := typeWords_append_inj hparams
  obtain ⟨rfl, rfl⟩ := typeWords_append_inj hcaptures
  obtain rfl := TypeId.toNat_index_inj htarget
  exact ⟨rfl, rfl⟩

/-- Lists of equal length are determined by their words if their first
entries are. -/
theorem Content.listWords_append_inj {cs ds : List Content} {xs ys : List Nat}
    (hinj : ∀ c ∈ cs, ∀ d ∈ ds, ∀ xs ys, c.words ++ xs = d.words ++ ys → c = d ∧ xs = ys)
    (hlen : cs.length = ds.length) (h : listWords cs ++ xs = listWords ds ++ ys) :
    cs = ds ∧ xs = ys := by
  induction cs generalizing ds with
  | nil =>
    obtain rfl : ds = [] := List.length_eq_zero_iff.1 hlen.symm
    exact ⟨rfl, h⟩
  | cons c cs ih =>
    cases ds with
    | nil => simp at hlen
    | cons d ds =>
      simp only [listWords, List.append_assoc] at h
      obtain ⟨rfl, hrest⟩ := hinj c List.mem_cons_self d List.mem_cons_self _ _ h
      obtain ⟨rfl, rfl⟩ := ih (fun c hc d hd => hinj c (List.mem_cons_of_mem _ hc) d
        (List.mem_cons_of_mem _ hd)) (by simpa using hlen) hrest
      exact ⟨rfl, rfl⟩

/-- A node that is no closure has another tag than closures. -/
theorem NodeTag.ne_closure_of_form {tag : NodeTag} {payload : Payload}
    (form : payload.form = tag.form) (plain : payload.form ≠ .nested) : tag ≠ .closure := by
  rintro rfl
  exact plain form

/-- **A content is determined by any sequence of words that begins with its
own**, and so is the rest of the sequence. -/
theorem Content.WellFormed.words_append_inj {c d : Content} (hc : c.WellFormed)
    (hd : d.WellFormed) {xs ys : List Nat} (h : c.words ++ xs = d.words ++ ys) :
    c = d ∧ xs = ys := by
  induction hc generalizing d xs ys with
  | absent =>
    cases hd with
    | absent => exact ⟨rfl, (List.cons.inj h).2⟩
    | node => exact absurd (List.cons.inj h).1.symm (NodeTag.code_ne_absentWord _)
    | closure => exact absurd (List.cons.inj h).1.symm (NodeTag.code_ne_absentWord _)
  | @node tag payload type children form plain _ ih =>
    cases hd with
    | absent => exact absurd (List.cons.inj h).1 (NodeTag.code_ne_absentWord _)
    | @node tag' payload' type' children' form' _ hwf =>
      simp only [words, List.cons_append, List.append_assoc, List.cons.injEq] at h
      obtain ⟨htag, hpayload⟩ := h
      obtain rfl := NodeTag.code_inj htag
      obtain ⟨rfl, hrest⟩ :=
        Payload.words_append_inj (form.trans form'.symm) plain hpayload
      simp only [List.cons.injEq] at hrest
      obtain ⟨htype, hlen, hchildren⟩ := hrest
      obtain rfl := TypeId.toNat_index_inj htype
      obtain ⟨rfl, rfl⟩ := listWords_append_inj
        (fun c hc d hd _ _ => ih c hc (hwf d hd)) hlen hchildren
      exact ⟨rfl, rfl⟩
    | closure =>
      exact absurd (NodeTag.code_inj (List.cons.inj h).1) (NodeTag.ne_closure_of_form form plain)
  | @closure signature body type captures _ _ ihbody ih =>
    cases hd with
    | absent => exact absurd (List.cons.inj h).1 (NodeTag.code_ne_absentWord _)
    | node form plain =>
      exact absurd (NodeTag.code_inj (List.cons.inj h).1.symm)
        (NodeTag.ne_closure_of_form form plain)
    | @closure signature' body' type' captures' hbody hwf =>
      simp only [words, List.cons_append, List.append_assoc, List.cons.injEq, true_and] at h
      obtain ⟨rfl, hlambda⟩ := signatureWords_append_inj h
      -- the body stands in the middle: what follows it is found only because it is delimited
      obtain ⟨rfl, hrest⟩ := ihbody hbody hlambda
      simp only [List.cons.injEq] at hrest
      obtain ⟨htype, hlen, hcaptures⟩ := hrest
      obtain rfl := TypeId.toNat_index_inj htype
      obtain ⟨rfl, rfl⟩ := listWords_append_inj
        (fun c hc d hd _ _ => ih c hc (hwf d hd)) hlen hcaptures
      exact ⟨rfl, rfl⟩

/-- Contents of lambdas with the same words are the same. -/
theorem LambdaContent.words_inj {c d : LambdaContent} (hc : c.body.WellFormed)
    (hd : d.body.WellFormed) (h : c.words = d.words) : c = d := by
  cases c
  cases d
  obtain ⟨rfl, hbody⟩ := signatureWords_append_inj h
  obtain ⟨rfl, -⟩ := hc.words_append_inj hd (congrArg (· ++ []) hbody)
  rfl

end LambdaSharing
