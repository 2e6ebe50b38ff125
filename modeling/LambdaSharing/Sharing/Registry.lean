import LambdaSharing.Comparison.Comparer
import LambdaSharing.Fingerprint.Hasher
import LambdaSharing.Options.Basic
import LambdaSharing.Sharing.Plan

/-!
# Registries

A `Registry` sorts the lambdas of one arena into classes, one lambda after
another. A new lambda joins the first class whose first lambda it is
equivalent to, or else starts a class of its own; so the first lambda of a
class stays the canonical one, and where a lambda ended up never changes.

Not every class is looked at. Equivalent lambdas have equal fingerprints, so
only the classes with the fingerprint of the new lambda are searched, its
*bucket*. A registry is given its arena as a parameter of its type: lambdas
of different arenas cannot meet in one registry.

A submission first finds out all it needs, which may fail, and only then
changes the registry, which may not. `Registry.submit` therefore leaves the
registry as it was whenever it answers with an error. Once the plan has been
handed out the registry accepts nothing more.
-/

namespace LambdaSharing

/-- How far a registry has come. -/
inductive Phase where
  /-- Nothing was accepted yet. -/
  | empty
  | populating
  /-- The plan was handed out. -/
  | finalized
deriving DecidableEq, Inhabited

/-- The phase's own name. -/
def Phase.name : Phase → String
  | empty => "Empty"
  | populating => "Populating"
  | finalized => "Finalized"

/-- Why a registry refuses a request. -/
inductive Refusal where
  /-- The lambda's body cannot be read. -/
  | faulty (fault : Fault)
  /-- The plan was handed out before. -/
  | submitAfterFinalize (lambda : LambdaId)
  /-- The plan was handed out before. -/
  | alreadyFinalized
deriving DecidableEq

namespace Refusal

/-- The lambda that the refusal is about. -/
def lambda? : Refusal → Option LambdaId
  | faulty fault => some fault.lambda
  | submitAfterFinalize l => some l
  | alreadyFinalized => none

/-- The refusal as it is reported. -/
def message : Refusal → String
  | faulty fault => fault.message
  | submitAfterFinalize l =>
    "lambda " ++ l.text ++ " submitted after the registry was finalized"
  | alreadyFinalized => "registry already finalized"

end Refusal

/-- What searching a bucket came to. The counts and records are for the plan,
which takes them over only if the lambda is accepted. -/
structure Search where
  /-- The class that was found, under its number. -/
  found : Option (ClassId × SharingClass) := none
  /-- How many comparisons were made on the way. -/
  comparisons : Nat := 0
  /-- How many of them found a divergence. -/
  collisions : Nat := 0
  /-- The comparisons themselves, if they are to be reported. -/
  traces : Array Trace := #[]

/-- Count a comparison, and record it if this is asked for. -/
def Search.record (s : Search) (reports : Reports) (t : Trace) : Search :=
  { s with
    comparisons := s.comparisons + 1
    collisions := if t.outcome.isEquivalent then s.collisions else s.collisions + 1
    traces := if reports.comparisons then s.traces.push t else s.traces }

/-- Sorts the lambdas of an arena into classes. -/
structure Registry (a : Arena) where
  /-- What the run was told. -/
  options : Options
  phase : Phase := .empty
  /-- The classes of each fingerprint, in order of creation. -/
  buckets : Std.ExtTreeMap UInt64 (List ClassId) := ∅
  /-- How many classes each owner has. -/
  ordinals : Std.ExtTreeMap Name UInt32 := ∅
  /-- The plan as it stands. -/
  draft : Plan := {}

namespace Registry

variable {a : Arena}

/-- A registry that has accepted nothing. -/
def new (a : Arena) (options : Options) : Registry a := { options }

/-- Where an accepted lambda ended up. -/
def canonical? (r : Registry a) (l : LambdaId) : Option Reference := r.draft.canonical? l

/-- The classes with a fingerprint, in order of creation. -/
def bucket (r : Registry a) (hash : UInt64) : List ClassId := r.buckets.getD hash []

/-! ## Finding the class of a lambda -/

/-- Go on with a search among some classes. The comparer at hand serves all
comparisons, and every comparison is counted, the last one included. -/
def searchOn (r : Registry a) (l : LambdaId) (comparer : Comparer) (s : Search) :
    List ClassId → Except Fault Search
  | [] => .ok s
  | id :: rest =>
    match r.draft.class? id with
    | none => r.searchOn l comparer s rest
    | some c => do
      let (answer, comparer) := comparer.compareLambdas a l c.canonical
      let outcome ← answer
      let s := s.record r.options.reports ⟨l, c.canonical, outcome⟩
      if outcome.isEquivalent then
        return { s with found := some (id, c) }
      else
        r.searchOn l comparer s rest

/-- The first of some classes whose first lambda a lambda is equivalent to. -/
def searchAmong (r : Registry a) (l : LambdaId) (ids : List ClassId) : Except Fault Search :=
  r.searchOn l (.new r.options.policy r.options.maxDepth) {} ids

/-- What there is to know about a lambda before it is accepted. -/
structure Examination where
  lambda : Lambda
  hash : UInt64
  search : Search

/-- Find out all there is to know about a lambda: whether its body can be
read, its fingerprint, and the class it belongs to. -/
def examine (r : Registry a) (l : LambdaId) : Except Fault Examination := do
  let scope ← a.scope l
  let hash ← a.lambdaHash r.options.maxDepth l
  let search ← if r.options.deduplicate then r.searchAmong l (r.bucket hash) else .ok {}
  return ⟨scope.lambda, hash, search⟩

end Registry

/-! ## Changing the plan -/

namespace Plan

/-- Count an accepted lambda, and take over what was done to find its class. -/
def count (p : Plan) (search : Search) : Plan :=
  { p with
    stats :=
      { p.stats with
        submitted := p.stats.submitted + 1
        comparisons := p.stats.comparisons + UInt64.ofNat search.comparisons
        collisions := p.stats.collisions + UInt64.ofNat search.collisions }
    traces := p.traces ++ search.traces }

/-- Add a lambda to a class. -/
def fold (p : Plan) (reports : Reports) (l : LambdaId) (captures : List SymbolId)
    (id : ClassId) (c : SharingClass) : Plan :=
  { p with
    classes := p.classes.modify id.index.toNat fun c => { c with members := c.members.push l }
    callSites := p.callSites.push ⟨l, id, c.method, captures⟩
    assignments := p.assignments.insert l id
    notes := if reports.folded then p.notes.push (.folded l c.canonical c.method) else p.notes
    stats := { p.stats with deduplicated := p.stats.deduplicated + 1 } }

/-- The number of the next class. -/
def nextClass (p : Plan) : ClassId := ⟨UInt32.ofNat p.classes.size⟩

/-- Start a class with a lambda. -/
def create (p : Plan) (reports : Reports) (l : LambdaId) (captures : List SymbolId)
    (hash : UInt64) (method : Method) : Plan :=
  { p with
    classes := p.classes.push ⟨p.nextClass, l, #[l], hash, method⟩
    callSites := p.callSites.push ⟨l, p.nextClass, method, captures⟩
    assignments := p.assignments.insert l p.nextClass
    notes := if reports.methods then p.notes.push (.implemented l method) else p.notes
    stats := { p.stats with classes := p.stats.classes + 1 } }

end Plan

namespace Registry

variable {a : Arena}

/-- Accept a lambda that was examined. -/
def accept (r : Registry a) (l : LambdaId) (e : Examination) : Reference × Registry a :=
  let reports := r.options.reports
  let captures := e.lambda.captures.map (·.var)
  let draft := r.draft.count e.search
  match e.search.found with
  | some (id, c) =>
    (⟨id, c.canonical⟩,
      { r with
        phase := .populating
        draft := draft.fold reports l captures id c })
  | none =>
    let owner := e.lambda.owner
    let ordinal := r.ordinals.getD owner 0
    let id := draft.nextClass
    (⟨id, l⟩,
      { r with
        phase := .populating
        buckets := r.buckets.insert e.hash (r.bucket e.hash ++ [id])
        ordinals := r.ordinals.insert owner (ordinal + 1)
        draft := draft.create reports l captures e.hash ⟨owner, ordinal⟩ })

/-- **Submit a lambda.** A lambda that was accepted before is not looked at
again. -/
def submit (r : Registry a) (l : LambdaId) : Except Refusal Reference × Registry a :=
  if r.phase = .finalized then
    (.error (.submitAfterFinalize l), r)
  else
    match r.canonical? l with
    | some reference => (.ok reference, r)
    | none =>
      match r.examine l with
      | .error fault => (.error (.faulty fault), r)
      | .ok e =>
        let (reference, r) := r.accept l e
        (.ok reference, r)

/-- **Hand out the plan**, after which nothing is accepted any more. -/
def finalize (r : Registry a) : Except Refusal Plan × Registry a :=
  if r.phase = .finalized then
    (.error .alreadyFinalized, r)
  else
    (.ok r.draft, { r with phase := .finalized })

end Registry

end LambdaSharing
