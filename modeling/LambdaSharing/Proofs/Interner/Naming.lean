import Mathlib.Data.Finset.Card
import Mathlib.Data.List.Forall2
import LambdaSharing.Interner

/-!
# Names are given in order of first use

Strings come to a table in any order and any number of times, and with each
comes the question for its name. Two bodies are held against each other by
the names in them, not by the strings, and generated methods are told apart by
the names of their owners; so a string that had two names, or a name that
stood for two strings, would show as bodies that differ although they are
equal, or as two methods under one name.

The table that has answered such questions is known from the strings that were
asked for: each stands in it once, in the order of their first use
(`Holds`). One question keeps this up (`Holds.intern`), and so do any number
of them (`Holds.run`), as long as there is a name for every string. So no
name depends on what is asked later, and none on how often something was asked
before (`names_of_requests`).
-/

namespace LambdaSharing

namespace Interner

/-! ## Questions -/

/-- The question for the name of a string. -/
inductive Request where
  /-- Ask for the name, or for the reason why there is none. -/
  | attempt (s : String)
  /-- Insist on a name. -/
  | insist (s : String)

/-- The string that is asked for. -/
def Request.string : Request → String
  | attempt s => s
  | insist s => s

/-- What becomes of a question. -/
inductive Answer where
  | name (n : Name)
  | refusal (e : InternError)
  /-- There was no going on without a name. -/
  | aborted (message : String)

/-- What becomes of a question when there is a name, and when there is none. -/
def Request.outcome : Request → Except InternError Name → Answer
  | _, .ok n => .name n
  | .attempt _, .error e => .refusal e
  | .insist _, .error e => .aborted e.message

/-- Answer a question. -/
def answer (q : Request) : StateM Interner Answer := fun t =>
  let (given, t) := t.intern q.string
  (q.outcome given, t)

/-- **Answer questions one after another.** -/
def run (t : Interner) (requests : List Request) : List Answer × Interner :=
  (requests.mapM answer).run t

variable {t t' : Interner} {s : String} {n : Name} {used : List String}

theorem run_cons (t : Interner) (q : Request) (rest : List Request) :
    t.run (q :: rest) =
      (((answer q).run t).1 :: (((answer q).run t).2.run rest).1,
        (((answer q).run t).2.run rest).2) := by
  unfold run
  rw [List.mapM_cons, StateT.run_bind]
  rfl

/-- Later questions are put to the table that the earlier ones leave. -/
theorem run_append (t : Interner) (earlier later : List Request) :
    t.run (earlier ++ later) =
      ((t.run earlier).1 ++ ((t.run earlier).2.run later).1,
        ((t.run earlier).2.run later).2) := by
  unfold run
  rw [List.mapM_append, StateT.run_bind]
  rfl

/-- The names for earlier questions come first among all names. -/
theorem names_prefix {earlier later : List Request} {given names : List Name}
    (h : (t.run earlier).1 = given.map .name)
    (h' : (t.run (earlier ++ later)).1 = names.map .name) : given <+: names := by
  rw [run_append, h] at h'
  exact (List.prefix_map_iff_of_injective fun _ _ => Answer.name.inj).1 ⟨_, h'⟩

/-- No name beyond the last one given out stands for anything. -/
theorem lookup_of_size_le (h : t.size ≤ n.index.toNat) : t.lookup n = "" := by
  rw [lookup, Array.getD_eq_getD_getElem?, Array.getElem?_eq_none h]
  rfl

/-! ## The table after strings were used -/

/-- Further strings only add to the ones used before. -/
theorem length_eraseDups_le_append (used later : List String) :
    used.eraseDups.length ≤ (used ++ later).eraseDups.length := by
  rw [List.eraseDups_append, List.length_append]
  exact Nat.le_add_right _ _

/-- **The table has been asked for certain strings.** Each stands in it once,
in the order of their first use. -/
def Holds (t : Interner) (used : List String) : Prop :=
  t.strings.toList = used.eraseDups

namespace Holds

/-- At the start only the empty string is taken for used. -/
theorem new : new.Holds [""] := rfl

theorem size_eq (h : t.Holds used) : t.size = used.eraseDups.length :=
  congrArg List.length h

/-- A string has the name of its place. -/
theorem find?_eq_some_iff (h : t.Holds used) :
    t.find? s = some n ↔ used.eraseDups[n.index.toNat]? = some s := by
  rw [Interner.find?_eq_some_iff, ← h, Array.getElem?_toList]

/-- A name is a place in the order of first use. -/
theorem idxOf_eq (h : t.Holds used) (hn : t.find? s = some n) :
    used.eraseDups.idxOf s = n.index.toNat := by
  obtain ⟨hlt, hget⟩ := List.getElem?_eq_some_iff.1 (h.find?_eq_some_iff.1 hn)
  have hdistinct := h ▸ t.distinct
  rw [← hget, hdistinct.idxOf_getElem]

/-- What has a name keeps it when further strings are used. -/
theorem find?_mono (h : t.Holds used) {later : List String} (h' : t'.Holds (used ++ later))
    (hn : t.find? s = some n) : t'.find? s = some n := by
  rw [h.find?_eq_some_iff] at hn
  rw [h'.find?_eq_some_iff, List.eraseDups_append,
    List.getElem?_append_left (List.getElem?_eq_some_iff.1 hn).1, hn]

/-- A string that has been used before adds nothing. -/
theorem eraseDups_concat_of_mem (h : t.Holds used) (hs : s ∈ t.strings) :
    (used ++ [s]).eraseDups = t.strings.toList := by
  have hused : used.contains s = true := by
    rwa [← Array.mem_toList_iff, h, List.mem_eraseDups, ← List.contains_iff_mem] at hs
  rw [List.eraseDups_append, List.cons_removeAll, hused, h]
  exact List.append_nil _

/-- One that has not been used before comes last. -/
theorem eraseDups_concat_of_notMem (h : t.Holds used) (hs : s ∉ t.strings) :
    (used ++ [s]).eraseDups = t.strings.toList ++ [s] := by
  have hused : used.contains s = false := by
    rwa [← Array.mem_toList_iff, h, List.mem_eraseDups, ← List.contains_iff_mem,
      Bool.not_eq_true] at hs
  rw [List.eraseDups_append, List.cons_removeAll, hused, h]
  rfl

/-- **One question**: if there is room, then there is a name, and the table
has the string under it from then on. -/
theorem intern (h : t.Holds used) (room : (used ++ [s]).eraseDups.length ≤ UInt32.size) :
    ∃ n t', t.intern s = (.ok n, t') ∧ t'.Holds (used ++ [s]) ∧ t'.find? s = some n := by
  cases hfind : t.find? s with
  | some n =>
    have hs : s ∈ t.strings := Array.mem_of_getElem? (Interner.find?_eq_some_iff.1 hfind)
    exact ⟨n, t, intern_of_find? hfind, (h.eraseDups_concat_of_mem hs).symm, hfind⟩
  | none =>
    have hs : s ∉ t.strings := find?_eq_none_iff.1 hfind
    have hconcat := h.eraseDups_concat_of_notMem hs
    have room : t.size < UInt32.size := by
      rw [hconcat, List.length_append] at room
      exact room
    refine ⟨_, t.push s hs room, intern_of_find?_eq_none hfind room, ?_, ?_⟩
    · rw [Holds, hconcat]
      exact Array.toList_push
    · rw [Interner.find?_eq_some_iff]
      show (t.strings.push s)[(UInt32.ofNat t.size).toNat]? = some s
      rw [UInt32.toNat_ofNat_of_lt' room]
      exact Array.getElem?_push_size

/-- **Any number of questions.** -/
theorem run (h : t.Holds used) {requests : List Request}
    (room : (used ++ requests.map Request.string).eraseDups.length ≤ UInt32.size) :
    ∃ names t', t.run requests = (names.map Answer.name, t') ∧
      t'.Holds (used ++ requests.map Request.string) ∧
      List.Forall₂ (fun s n => t'.find? s = some n) (requests.map Request.string) names := by
  induction requests generalizing t used with
  | nil => exact ⟨[], t, rfl, (List.append_nil used).symm ▸ h, .nil⟩
  | cons q rest ih =>
    rw [List.map_cons, List.append_cons] at room ⊢
    obtain ⟨n, t₁, hintern, h₁, hn⟩ := h.intern ((length_eraseDups_le_append _ _).trans room)
    obtain ⟨names, t₂, hrun, h₂, hnames⟩ := ih h₁ room
    have hanswer : (answer q).run t = (.name n, t₁) := by
      show (q.outcome (t.intern q.string).1, (t.intern q.string).2) = _
      rw [hintern]
      cases q <;> rfl
    refine ⟨n :: names, t₂, ?_, h₂, .cons (h₁.find?_mono h₂ hn) hnames⟩
    rw [run_cons, hanswer, hrun]
    rfl

end Holds

/-! ## Strings in order of first use -/

/-- **The strings other than the empty one, in order of first use.** -/
def firstUses (ss : List String) : List String :=
  (ss.filter (· ≠ "")).eraseDups

/-- The empty string counts as used before all others. -/
theorem eraseDups_cons_empty (ss : List String) : ("" :: ss).eraseDups = "" :: firstUses ss := by
  rw [List.eraseDups_cons, firstUses]
  congr 3
  funext s
  by_cases h : s = "" <;> simp [h]

theorem nodup_eraseDups : ∀ ss : List String, ss.eraseDups.Nodup
  | [] => .nil
  | s :: ss => by
    rw [List.eraseDups_cons, List.nodup_cons]
    exact ⟨by simp, nodup_eraseDups _⟩
termination_by ss => ss.length
decreasing_by exact Nat.lt_succ_of_le (List.length_filter_le _ _)

/-- There are as many first uses as there are strings. -/
theorem length_firstUses (ss : List String) :
    (firstUses ss).length = (ss.toFinset.erase "").card := by
  rw [firstUses, ← List.toFinset_card_of_nodup (nodup_eraseDups _)]
  congr 1
  ext s
  simp [and_comm]

/-- **Names and strings correspond one to one, and no answer is taken back.**
Let there be fewer strings than names. Then every question is answered with a
name, and two questions with the same name exactly if they ask for the same
string. Every name stands for its string in the table that is left then, and in
all later ones. The empty string has name `0`, and the others have names `1`,
`2`, … in order of first use; the table counts them all, and the names beyond
stand for nothing. -/
theorem names_of_requests (requests : List Request)
    (room : (requests.map Request.string).toFinset.card < UInt32.size - 1) :
    let ss := requests.map Request.string
    let t := (new.run requests).2
    ∃ names : List Name,
      (new.run requests).1 = names.map Answer.name ∧
      (∀ x ∈ ss.zip names, ∀ y ∈ ss.zip names, x.2 = y.2 ↔ x.1 = y.1) ∧
      (∀ earlier later, requests = earlier ++ later →
        ∀ x ∈ (earlier.map Request.string).zip names,
          (new.run earlier).2.lookup x.2 = x.1) ∧
      names.map (·.index.toNat) = ss.map (("" :: firstUses ss).idxOf ·) ∧
      t.size = (ss.toFinset.erase "").card + 1 ∧
      ∀ n, t.size ≤ n.index.toNat → t.lookup n = "" := by
  intro ss t
  have hfirst : ([""] ++ ss).eraseDups = "" :: firstUses ss := eraseDups_cons_empty ss
  have hroom : ([""] ++ ss).eraseDups.length ≤ UInt32.size := by
    rw [hfirst, List.length_cons, length_firstUses]
    have hle : (ss.toFinset.erase "").card ≤ ss.toFinset.card := Finset.card_erase_le
    exact Nat.add_le_of_le_sub (by decide) (hle.trans room.le)
  obtain ⟨names, t', hrun, hholds, hnames⟩ := Holds.new.run hroom
  have ht : t = t' := congrArg Prod.snd hrun
  have hfind : ∀ x ∈ ss.zip names, t'.find? x.1 = some x.2 :=
    fun _ hx => (List.forall₂_iff_zip.1 hnames).2 hx
  refine ⟨names, congrArg Prod.fst hrun, ?_, ?_, ?_, ?_, fun n => lookup_of_size_le⟩
  · -- a string has one name, and a name one string
    intro x hx y hy
    have hx := hfind x hx
    have hy := hfind y hy
    constructor
    · intro h
      rw [← lookup_of_find? hx, ← lookup_of_find? hy, h]
    · intro h
      rw [h, hy] at hx
      exact (Option.some.inj hx).symm
  · intro earlier later happend x hx
    have hearlier : ([""] ++ earlier.map Request.string).eraseDups.length ≤ UInt32.size := by
      refine (length_eraseDups_le_append _ (later.map Request.string)).trans ?_
      rwa [List.append_assoc, ← List.map_append, ← happend]
    obtain ⟨given, t₀, hrun₀, -, hgiven⟩ := Holds.new.run hearlier
    obtain ⟨hlen, hgiven⟩ := List.forall₂_iff_zip.1 hgiven
    obtain ⟨rest, rfl⟩ : given <+: names :=
      names_prefix (congrArg Prod.fst hrun₀) (happend ▸ congrArg Prod.fst hrun)
    rw [← List.append_nil (earlier.map Request.string), List.zip_append hlen, List.zip_nil_left,
      List.append_nil] at hx
    rw [hrun₀]
    exact lookup_of_find? (hgiven hx)
  · symm
    rw [← List.forall₂_eq_eq_eq, List.forall₂_map_left_iff, List.forall₂_map_right_iff]
    exact hnames.imp fun s n hn => hfirst ▸ hholds.idxOf_eq hn
  · rw [ht, hholds.size_eq, hfirst, List.length_cons, length_firstUses]

/-- Four questions for three strings. -/
theorem names_of_four_requests :
    let requests : List Request := [.insist "b", .attempt "", .insist "a", .attempt "b"]
    (requests.map Request.string).toFinset.card < UInt32.size - 1 ∧
      ∃ names : List Name, (new.run requests).1 = names.map Answer.name ∧
        names.map (·.index.toNat) = [1, 0, 2, 1] ∧ (new.run requests).2.size = 3 := by
  intro requests
  have room : (requests.map Request.string).toFinset.card < UInt32.size - 1 := by decide
  obtain ⟨names, hrun, -, -, hplaces, hsize, -⟩ := names_of_requests requests room
  exact ⟨room, names, hrun, hplaces.trans (by decide), hsize.trans (by decide)⟩

end Interner

end LambdaSharing
