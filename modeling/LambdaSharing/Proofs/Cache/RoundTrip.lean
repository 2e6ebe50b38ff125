import LambdaSharing.Cache.Plan

/-!
# What is saved is read back

A later run relies on a plan that an earlier one saved. It did not see how the
plan came about, and the plan need not come from a registry at all. So reading
must give back any plan whatever, with classes that refer to nothing, numbers
that use all of their bits, and call sites without a class. Only the records
of comparisons are not saved, and a plan that is read has none.

Most of this is a matter of types, and was seen to with their cached forms: a
type is read back as itself if its parts are, and the name under which a field
or a variant is written is the one under which it is looked for. What does not
follow the types are the assignments. They are a table, and a table has no
order: whoever writes it lists the entries as they come, so that two plans
that are the same may be saved in different ways. Nothing that is read depends
on it, as every entry is read for itself, and no lambda is assigned twice
(`assignmentsOfCache?_of_perm`).
-/

namespace LambdaSharing

open Cache

namespace Plan

variable {p : Plan} {entries : List (LambdaId × ClassId)}

/-- The cached form of a plan, with the assignments listed as given. -/
def toCacheListing (p : Plan) (entries : List (LambdaId × ClassId)) : Value :=
  .record
    [("classes", encode p.classes), ("call_sites", encode p.callSites),
      ("assignments", .record (entries.map assignmentToCache)), ("notes", encode p.notes),
      ("stats", encode p.stats)]

/-- The order of this library is that of the lambdas. -/
theorem toCache_eq (p : Plan) : p.toCache = p.toCacheListing p.assignments.toList := rfl

/-- A plan is read back whatever the order in which its assignments were
listed. -/
theorem ofCache?_toCacheListing (h : entries.Perm p.assignments.toList) :
    ofCache? (p.toCacheListing entries) = some { p with traces := #[] } := by
  have hassignments : (decode (.record (entries.map assignmentToCache)) :
      Option (Std.ExtTreeMap LambdaId ClassId)) = some p.assignments :=
    assignmentsOfCache?_of_perm h
  simp [ofCache?, toCacheListing, hassignments]

end Plan

/-- **What is saved is read back.** A plan of any origin, saved with its
assignments in any order, can be read, and is the same but for the records of
comparisons, of which there are none. So it answers every question in the same
way, and it does not matter in which order the assignments were. Identifiers,
absent children, ranges, spans, slots, literals and operators are read back as
themselves. -/
theorem Cache.roundTrip (p : Plan) (entries : List (LambdaId × ClassId))
    (h : entries.Perm p.assignments.toList) :
    (∃ q, Plan.ofCache? (p.toCacheListing entries) = some q ∧
      q = { p with traces := #[] } ∧ q.traces = #[] ∧
      (∀ l, q.canonical? l = p.canonical? l) ∧ (∀ id, q.class? id = p.class? id) ∧
      q.methods = p.methods ∧ q.callSites = p.callSites ∧ q.deduplicated = p.deduplicated ∧
      q.notes = p.notes ∧ q.stats = p.stats ∧ q.size = p.size) ∧
    Plan.ofCache? (p.toCacheListing entries) = Plan.ofCache? p.toCache ∧
    (LawfulCached Child ∧ LawfulCached LambdaId ∧ LawfulCached TypeId ∧ LawfulCached SymbolId ∧
      LawfulCached Name ∧ LawfulCached ClassId) ∧
    (LawfulCached NodeRange ∧ LawfulCached Span) ∧
    (LawfulCached Slot ∧ LawfulCached Literal ∧ LawfulCached BinaryOp ∧ LawfulCached UnaryOp) := by
  refine ⟨⟨_, Plan.ofCache?_toCacheListing h, rfl, rfl, fun _ => rfl, fun _ => rfl, rfl, rfl, rfl,
    rfl, rfl, rfl⟩, ?_, ?_, ?_, ?_⟩
  · rw [Plan.toCache_eq, Plan.ofCache?_toCacheListing h, Plan.ofCache?_toCacheListing (.refl _)]
  · exact ⟨inferInstance, inferInstance, inferInstance, inferInstance, inferInstance,
      inferInstance⟩
  · exact ⟨inferInstance, inferInstance⟩
  · exact ⟨inferInstance, inferInstance, inferInstance, inferInstance⟩

/-- A plan in which a lambda is assigned to a class that is missing, saved with
the assignments in the order of the numerals `"10"` and `"2"`. -/
theorem Cache.roundTrip_of_stray :
    let m : Method := ⟨⟨1⟩, 0⟩
    let p : Plan :=
      { classes := #[⟨⟨0⟩, ⟨2⟩, #[⟨2⟩, ⟨10⟩], 0xFFFFFFFFFFFFFFFF, m⟩]
        assignments := .ofList [(LambdaId.mk 2, ClassId.mk 0), (LambdaId.mk 10, ClassId.mk 7)]
        notes := #[.implemented ⟨2⟩ m, .folded ⟨10⟩ ⟨2⟩ m]
        traces := #[⟨⟨10⟩, ⟨2⟩, .equivalent⟩] }
    ∃ q, Plan.ofCache? (p.toCacheListing [(⟨10⟩, ⟨7⟩), (⟨2⟩, ⟨0⟩)]) = some q ∧
      q.traces = #[] ∧ q.notes = p.notes ∧ q.canonical? ⟨2⟩ = some ⟨⟨0⟩, ⟨2⟩⟩ ∧
      q.canonical? ⟨10⟩ = none := by
  intro m p
  obtain ⟨q, hq, -, htraces, hcanonical, -, -, -, -, hnotes, -⟩ :=
    (roundTrip p [(⟨10⟩, ⟨7⟩), (⟨2⟩, ⟨0⟩)] (by decide +kernel)).1
  refine ⟨q, hq, htraces, hnotes, ?_, ?_⟩
  · rw [hcanonical]
    decide +kernel
  · rw [hcanonical]
    decide +kernel

end LambdaSharing
