import LambdaSharing.Proofs.Sharing.Representation

/-!
# The names of generated methods

A method is generated for every class. It is named after the method that
encloses the first lambda of the class, and after the number of classes that
this owner had before; and the name is put together as text, with a separator
that the owner may contain as well. Owners are names of the source language,
and nothing keeps them from looking like the name of a generated method.

Two classes never get the same name (`Registry.methods_distinct`), for two
reasons that have nothing to do with each other. The classes of an owner are
numbered without gaps or repetitions, whatever comes in between: lambdas of
other owners, lambdas that join a class, and lambdas that are refused. And a
name can be read from its end: an ordinal has no separator in it, so the
*last* separator is where the owner ends, however many there are before it.
-/

namespace LambdaSharing

/-! ## Ordinals -/

namespace Ledger

variable {g : Ledger} {a : Arena} {l : LambdaId} {x y : Reference}

namespace Kept

/-- The ordinal that a new class takes is the number of classes that its owner
has. -/
theorem toNat_ordinal (h : g.Kept) (hnew : l ∉ g.lambdas) (owner : Name) :
    (g.ordinal a owner).toNat = g.classes.countP fun x => a.owner x.canonical = owner := by
  have hle : (g.classes.countP fun x => a.owner x.canonical = owner) ≤ g.classes.length :=
    List.countP_le_length
  exact UInt32.toNat_ofNat_of_lt' (Nat.lt_of_le_of_lt hle (h.length_classes_lt hnew))

/-- **The ordinals of an owner are `0`, `1`, `2`, …** in order of creation of
its classes. -/
theorem ordinals (h : g.Kept) (a : Arena) (owner : Name) :
    ((g.classes.filter fun x => a.owner x.canonical = owner).map
        fun x => (g.method a x).ordinal.toNat) =
      List.range (g.classes.countP fun x => a.owner x.canonical = owner) := by
  -- whatever is entered, the classes that are there keep their methods
  have hold {g : Ledger} (l : LambdaId) (x : Reference) :
      ((g.classes.filter fun x => a.owner x.canonical = owner).map
          fun y => ((g.add l x).method a y).ordinal.toNat) =
        (g.classes.filter fun x => a.owner x.canonical = owner).map
          fun y => (g.method a y).ordinal.toNat := by
    refine List.map_congr_left fun y hy => ?_
    rw [method_add (List.mem_of_mem_filter hy)]
  induction h with
  | empty => rfl
  | @join g l x h hnew hx ih => rw [classes_join hnew hx, hold, ih]
  | @start g l h hnew ih =>
    rw [classes_start, map_filter_concat, hold, ih, method_start hnew, List.countP_append,
      List.countP_singleton]
    by_cases howner : a.owner l = owner
    · rw [if_pos (decide_eq_true howner), if_pos (decide_eq_true howner), howner,
        h.toNat_ordinal hnew, List.range_succ]
    · rw [if_neg (mt of_decide_eq_true howner), if_neg (mt of_decide_eq_true howner),
        List.append_nil, Nat.add_zero]

/-- Every class has a method of its own. -/
theorem method_inj (h : g.Kept) (hx : x ∈ g.classes) (hy : y ∈ g.classes)
    (heq : g.method a x = g.method a y) : x = y := by
  have howner : a.owner x.canonical = a.owner y.canonical := congrArg Method.owner heq
  have hnodup := h.ordinals a (a.owner y.canonical) ▸ List.nodup_range
  refine List.inj_on_of_nodup_map hnodup ?_ ?_ (congrArg (·.ordinal.toNat) heq)
  · exact List.mem_filter.2 ⟨hx, decide_eq_true howner⟩
  · exact List.mem_filter.2 ⟨hy, decide_eq_true rfl⟩

end Kept

end Ledger

/-! ## Names -/

/-- Lists with a separator are cut in the same place if they are cut at the
last one. -/
theorem append_separator_inj {α : Type} {separator : α} {xs ys ds es : List α}
    (hds : separator ∉ ds) (hes : separator ∉ es)
    (h : xs ++ separator :: ds = ys ++ separator :: es) : xs = ys ∧ ds = es := by
  -- if one of the lists were cut later, the end of the other would have a separator
  rcases List.append_eq_append_iff.1 h with ⟨as, rfl, hcut⟩ | ⟨as, rfl, hcut⟩
  · cases as with
    | nil => exact ⟨(List.append_nil xs).symm, (List.cons.inj hcut).2⟩
    | cons _ as => exact absurd ((List.cons.inj hcut).2 ▸ by simp) hds
  · cases as with
    | nil => exact ⟨List.append_nil ys, (List.cons.inj hcut).2.symm⟩
    | cons _ as => exact absurd ((List.cons.inj hcut).2 ▸ by simp) hes

/-- A numeral consists of digits. -/
theorem separator_notMem_toDigits (n : Nat) : '$' ∉ Nat.toDigits 10 n := by
  intro hmem
  have hdigit := Nat.isDigit_of_mem_toDigits (by decide) (by decide) hmem
  exact absurd hdigit (by decide)

/-- Numbers have different numerals. -/
theorem toDigits_inj {m n : Nat} (h : Nat.toDigits 10 m = Nat.toDigits 10 n) : m = n := by
  have hread := congrArg (fun digits => Nat.ofDigitChars 10 digits 0) h
  simpa only [Nat.ofDigitChars_ten_toDigits] using hread

/-- Names that were given out stand for different strings. -/
theorem Interner.lookup_inj {t : Interner} {m n : Name} (hm : m.index.toNat < t.size)
    (hn : n.index.toNat < t.size) (h : t.lookup m = t.lookup n) : m = n := by
  have hfind := t.find?_lookup hm
  rw [h, t.find?_lookup hn] at hfind
  exact (Option.some.inj hfind).symm

namespace Method

variable {t : Interner} {m n : Method}

/-- The characters of a name: the owner up to the last separator, and the
digits of the ordinal. -/
theorem toList_name (m : Method) (t : Interner) :
    (m.name t).toList =
      ("lambda$" ++ t.lookup m.owner).toList ++ '$' :: Nat.toDigits 10 m.ordinal.toNat := by
  unfold name
  rw [String.toList_append, String.toList_append, List.append_assoc, Nat.toString_eq_repr,
    Nat.toList_repr]
  rfl

/-- **A name says which method it is**, whatever is in the name of the
owner. -/
theorem name_inj (hm : m.owner.index.toNat < t.size) (hn : n.owner.index.toNat < t.size)
    (h : m.name t = n.name t) : m = n := by
  have hchars := congrArg String.toList h
  rw [toList_name, toList_name] at hchars
  obtain ⟨howner, hordinal⟩ := append_separator_inj (separator_notMem_toDigits _)
    (separator_notMem_toDigits _) hchars
  have howner := Interner.lookup_inj hm hn
    ((String.append_right_inj _).1 (String.toList_inj.1 howner))
  have hordinal := UInt32.toNat_inj.1 (toDigits_inj hordinal)
  cases m
  cases n
  exact congrArg₂ Method.mk howner hordinal

end Method

/-! ## The methods of a plan -/

namespace Registry

variable {a : Arena} {r : Registry a} {g : Ledger}

namespace Keeps

/-- The methods of a plan are those of the classes in the ledger. -/
theorem methods_eq (h : r.Keeps g) : r.draft.methods = g.classes.map (g.method a) := by
  unfold Plan.methods
  rw [h.classes_eq, List.map_map]
  rfl

/-- The first lambda of a class is registered, and its owner is that of the
class's method. -/
theorem owner_method (h : r.Keeps g) (hr : r.Coherent) {c : SharingClass}
    (hc : c ∈ r.draft.classes) :
    ∃ lambda, a.lambda? c.canonical = some lambda ∧ a.owner c.canonical = lambda.owner ∧
      c.method.owner = lambda.owner := by
  obtain ⟨x, hx, rfl⟩ := h.mem_classes_iff.1 hc
  obtain ⟨content, hread, -⟩ := Arena.lambdaHash_eq_ok_iff.1 (h.lambdaHash_canonical hr hx)
  obtain ⟨lambda, hlambda, -⟩ := Arena.lambda?_of_readLambda hread
  have howner : a.owner x.canonical = lambda.owner := by
    rw [Arena.owner, hlambda]
    rfl
  exact ⟨lambda, hlambda, howner, howner⟩

/-- The ordinals of an owner's classes are `0`, `1`, `2`, … -/
theorem ordinals (h : r.Keeps g) (owner : Name) :
    ((r.draft.classes.toList.filter fun c => a.owner c.canonical = owner).map
        fun c => c.method.ordinal.toNat) =
      List.range (r.draft.classes.toList.countP fun c => a.owner c.canonical = owner) := by
  rw [h.classes_eq, List.filter_map, List.map_map, List.countP_map]
  exact h.kept.ordinals a owner

/-- The names of all methods are different. -/
theorem nodup_names (h : r.Keeps g) {t : Interner}
    (hgiven : ∀ c ∈ r.draft.classes, (a.owner c.canonical).index.toNat < t.size) :
    (r.draft.methods.map (·.name t)).Nodup := by
  have hgiven {x : Reference} (hx : x ∈ g.classes) :
      (g.method a x).owner.index.toNat < t.size :=
    hgiven (g.sharingClass a r.options x) (h.mem_classes_iff.2 ⟨x, hx, rfl⟩)
  rw [h.methods_eq, List.map_map]
  refine h.kept.nodup_classes.map_on fun x hx y hy heq => ?_
  exact h.kept.method_inj hx hy (Method.name_inj (hgiven hx) (hgiven hy) heq)

end Keeps

/-- **Generated methods never clash.** After any requests, the method of a
class has the owner of the class's first lambda, and the ordinals of the
classes of each owner are `0`, `1`, `2`, … in order of creation. So if all
these owners are names that a table has given out, the methods are generated
under different names. -/
theorem methods_distinct (a : Arena) (o : Options) (requests : List Request) :
    (∀ c ∈ ((new a o).run requests).2.draft.classes,
      ∃ lambda, a.lambda? c.canonical = some lambda ∧ a.owner c.canonical = lambda.owner ∧
        c.method.owner = lambda.owner) ∧
    (∀ owner, (((new a o).run requests).2.draft.classes.toList.filter
          fun c => a.owner c.canonical = owner).map (fun c => c.method.ordinal.toNat) =
        List.range (((new a o).run requests).2.draft.classes.toList.countP
          fun c => a.owner c.canonical = owner)) ∧
    ∀ t : Interner, (∀ c ∈ ((new a o).run requests).2.draft.classes,
        (a.owner c.canonical).index.toNat < t.size) →
      (((new a o).run requests).2.draft.methods.map (·.name t)).Nodup := by
  have hnew : Reachable o (new a o) := .new
  have hkeeps := (Keeps.new a o).run requests
  refine ⟨?_, hkeeps.ordinals, ?_⟩
  · intro c hc
    exact hkeeps.owner_method (hnew.run requests).coherent hc
  · intro t hgiven
    exact hkeeps.nodup_names hgiven

/-- For two lambdas that `f` encloses and one that `f$0` encloses, the names
begin alike. -/
theorem methods_distinct_of_lookalike :
    let f (l : Lambda) : Lambda := { l with owner := ⟨1⟩ }
    let f0 (l : Lambda) : Lambda := { l with owner := ⟨2⟩ }
    let t : Interner := ⟨#["", "f", "f$0"], rfl, by decide, by decide⟩
    let a : Arena := { Arena.fiveLambdas with
      lambdas := #[f (Arena.capturing 1 1), f (Arena.capturing 2 4), f0 (Arena.capturing 1 6)] }
    let names := ((new a ⟨false, .positional, 2, {}⟩).run
      [.submit ⟨0⟩, .submit ⟨1⟩, .submit ⟨2⟩, .finalize]).2.draft.methods.map (·.name t)
    names = ["lambda$f$0", "lambda$f$1", "lambda$f$0$0"] ∧ names.Nodup := by
  intro f f0 t a names
  have hdistinct := methods_distinct a ⟨false, .positional, 2, {}⟩
    [.submit ⟨0⟩, .submit ⟨1⟩, .submit ⟨2⟩, .finalize]
  refine ⟨by decide +kernel, hdistinct.2.2 t fun c hc => ?_⟩
  obtain ⟨lambda, hlambda, howner, -⟩ := hdistinct.1 c hc
  have hall : ∀ lambda ∈ a.lambdas, lambda.owner.index.toNat < t.size := by decide
  rw [howner]
  exact hall lambda (Array.mem_of_getElem? hlambda)

end Registry

end LambdaSharing
