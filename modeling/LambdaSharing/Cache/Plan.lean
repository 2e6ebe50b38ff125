import LambdaSharing.Cache.Tree
import LambdaSharing.Decimal
import LambdaSharing.Sharing.Plan
import Std.Data.ExtTreeMap.Lemmas

/-!
# Cached plans

A plan is cached as a record of its parts. Records of comparisons are left
out, so that a plan read back has none; everything else it has is read back
as it was (`Plan.ofCache?_toCache`). The assignments are a record as well,
with the number of the lambda, as a numeral, for the name of the field.
-/

namespace LambdaSharing

open Cache

/-! ## The parts of a plan -/

/-- The cached form of a method. -/
def Method.toCache (m : Method) : Value :=
  .record [("owner", encode m.owner), ("ordinal", encode m.ordinal)]

/-- The method of a cached form. -/
def Method.ofCache? (v : Value) : Option Method := do
  return ⟨← field v "owner", ← field v "ordinal"⟩

instance : Cached Method := ⟨Method.toCache, Method.ofCache?⟩

instance : LawfulCached Method where
  decode_encode m := by
    change Method.ofCache? m.toCache = some m
    simp [Method.ofCache?, Method.toCache]

/-- The cached form of a reference. -/
def Reference.toCache (r : Reference) : Value :=
  .record [("class", encode r.classId), ("canonical", encode r.canonical)]

/-- The reference of a cached form. -/
def Reference.ofCache? (v : Value) : Option Reference := do
  return ⟨← field v "class", ← field v "canonical"⟩

instance : Cached Reference := ⟨Reference.toCache, Reference.ofCache?⟩

instance : LawfulCached Reference where
  decode_encode r := by
    change Reference.ofCache? r.toCache = some r
    simp [Reference.ofCache?, Reference.toCache]

/-- The cached form of a class. -/
def SharingClass.toCache (c : SharingClass) : Value :=
  .record
    [("id", encode c.id), ("canonical", encode c.canonical), ("members", encode c.members),
      ("hash", encode c.hash), ("method", encode c.method)]

/-- The class of a cached form. -/
def SharingClass.ofCache? (v : Value) : Option SharingClass := do
  return ⟨← field v "id", ← field v "canonical", ← field v "members", ← field v "hash",
    ← field v "method"⟩

instance : Cached SharingClass := ⟨SharingClass.toCache, SharingClass.ofCache?⟩

instance : LawfulCached SharingClass where
  decode_encode c := by
    change SharingClass.ofCache? c.toCache = some c
    simp [SharingClass.ofCache?, SharingClass.toCache]

/-- The cached form of a call site. -/
def CallSite.toCache (s : CallSite) : Value :=
  .record
    [("lambda", encode s.lambda), ("class", encode s.classId), ("method", encode s.method),
      ("captures", encode s.captures)]

/-- The call site of a cached form. -/
def CallSite.ofCache? (v : Value) : Option CallSite := do
  return ⟨← field v "lambda", ← field v "class", ← field v "method", ← field v "captures"⟩

instance : Cached CallSite := ⟨CallSite.toCache, CallSite.ofCache?⟩

instance : LawfulCached CallSite where
  decode_encode s := by
    change CallSite.ofCache? s.toCache = some s
    simp [CallSite.ofCache?, CallSite.toCache]

/-- The cached form of a note. -/
def Note.toCache : Note → Value
  | .implemented l m =>
    .record [("LambdaStat", .record [("lambda", encode l), ("method", encode m)])]
  | .folded l c m =>
    .record [("Deduplicated",
      .record [("lambda", encode l), ("canonical", encode c), ("method", encode m)])]

/-- The note of a cached form. -/
def Note.ofCache? (v : Value) : Option Note := do
  match ← v.variant? with
  | ("LambdaStat", content) =>
    return .implemented (← field content "lambda") (← field content "method")
  | ("Deduplicated", content) =>
    return .folded (← field content "lambda") (← field content "canonical")
      (← field content "method")
  | _ => none

instance : Cached Note := ⟨Note.toCache, Note.ofCache?⟩

instance : LawfulCached Note where
  decode_encode n := by
    change Note.ofCache? n.toCache = some n
    cases n <;> simp [Note.ofCache?, Note.toCache, Value.variant?]

/-- The cached form of the counts. -/
def Stats.toCache (s : Stats) : Value :=
  .record
    [("submitted", encode s.submitted), ("classes", encode s.classes),
      ("deduplicated", encode s.deduplicated), ("comparisons", encode s.comparisons),
      ("collisions", encode s.collisions)]

/-- The counts of a cached form. -/
def Stats.ofCache? (v : Value) : Option Stats := do
  return ⟨← field v "submitted", ← field v "classes", ← field v "deduplicated",
    ← field v "comparisons", ← field v "collisions"⟩

instance : Cached Stats := ⟨Stats.toCache, Stats.ofCache?⟩

instance : LawfulCached Stats where
  decode_encode s := by
    change Stats.ofCache? s.toCache = some s
    simp [Stats.ofCache?, Stats.toCache]

/-! ## Assignments -/

/-- The cached form of one assignment. -/
def assignmentToCache (entry : LambdaId × ClassId) : String × Value :=
  (toString entry.1.index.toNat, encode entry.2)

/-- The assignment of a field of a record. -/
def assignmentOfCache? (entry : String × Value) : Option (LambdaId × ClassId) := do
  let n ← Decimal.ofCanonical? entry.1
  if n < UInt32.size then
    return (⟨UInt32.ofNat n⟩, ← decode entry.2)
  else
    none

theorem assignmentOfCache?_toCache (entry : LambdaId × ClassId) :
    assignmentOfCache? (assignmentToCache entry) = some entry := by
  have h := Decimal.ofCanonical?_eq_some_iff.2 (rfl : toString entry.1.index.toNat = _)
  have hlt := entry.1.index.toNat_lt
  simp only [assignmentOfCache?, assignmentToCache, h, Option.bind_eq_bind, Option.bind_some]
  rw [if_pos hlt]
  simp

/-- The cached form of the assignments. -/
def assignmentsToCache (m : Std.ExtTreeMap LambdaId ClassId) : Value :=
  .record (m.toList.map assignmentToCache)

/-- The assignments of a cached form. -/
def assignmentsOfCache? : Value → Option (Std.ExtTreeMap LambdaId ClassId)
  | .record fields => (fields.mapM assignmentOfCache?).map (Std.ExtTreeMap.ofList ·)
  | _ => none

instance : Cached (Std.ExtTreeMap LambdaId ClassId) := ⟨assignmentsToCache, assignmentsOfCache?⟩

/-- Assignments are rebuilt from their entries, in whatever order these are
listed. -/
theorem ofList_of_perm_toList {m : Std.ExtTreeMap LambdaId ClassId}
    {entries : List (LambdaId × ClassId)} (h : entries.Perm m.toList) :
    Std.ExtTreeMap.ofList entries = m := by
  have hdistinct : entries.Pairwise fun e e' => ¬ compare e.1 e'.1 = .eq :=
    (h.pairwise_iff fun hne heq => hne (Std.OrientedCmp.eq_symm heq)).2 m.distinct_keys_toList
  apply Std.ExtTreeMap.ext_getElem?
  intro l
  cases hl : m[l]? with
  | some c =>
    exact Std.ExtTreeMap.getElem?_ofList_of_mem Std.ReflCmp.compare_self hdistinct
      (h.mem_iff.2 (m.mem_toList_iff_getElem?_eq_some.2 hl))
  | none =>
    have hnotMem : l ∉ entries.map Prod.fst := by
      rw [(h.map Prod.fst).mem_iff, m.map_fst_toList_eq_keys, Std.ExtTreeMap.mem_keys,
        Std.ExtTreeMap.mem_iff_isSome_getElem?, hl]
      exact Bool.false_ne_true
    exact Std.ExtTreeMap.getElem?_ofList_of_contains_eq_false (by simpa using hnotMem)

/-- Assignments are read back from the fields of a record, in whatever order
they were written. -/
theorem assignmentsOfCache?_of_perm {m : Std.ExtTreeMap LambdaId ClassId}
    {entries : List (LambdaId × ClassId)} (h : entries.Perm m.toList) :
    assignmentsOfCache? (.record (entries.map assignmentToCache)) = some m := by
  have hentries (entries : List (LambdaId × ClassId)) :
      (entries.map assignmentToCache).mapM assignmentOfCache? = some entries := by
    induction entries with
    | nil => rfl
    | cons entry entries ih => simp [assignmentOfCache?_toCache, ih]
  rw [assignmentsOfCache?, hentries, Option.map_some, ofList_of_perm_toList h]

instance : LawfulCached (Std.ExtTreeMap LambdaId ClassId) where
  decode_encode _ := assignmentsOfCache?_of_perm (.refl _)

/-! ## Plans -/

/-- The cached form of a plan. -/
def Plan.toCache (p : Plan) : Value :=
  .record
    [("classes", encode p.classes), ("call_sites", encode p.callSites),
      ("assignments", encode p.assignments), ("notes", encode p.notes),
      ("stats", encode p.stats)]

/-- The plan of a cached form. -/
def Plan.ofCache? (v : Value) : Option Plan := do
  return {
    classes := ← field v "classes"
    callSites := ← field v "call_sites"
    assignments := ← field v "assignments"
    notes := ← field v "notes"
    stats := ← field v "stats" }

instance : Cached Plan := ⟨Plan.toCache, Plan.ofCache?⟩

/-- A plan is read back without its records of comparisons, and otherwise as
itself. -/
theorem Plan.ofCache?_toCache (p : Plan) : ofCache? p.toCache = some { p with traces := #[] } := by
  simp [ofCache?, toCache]

end LambdaSharing
