import LambdaSharing.Comparison.Divergence
import LambdaSharing.Interner
import Std.Data.ExtTreeMap.Basic

/-!
# Plans

A `Plan` is what sharing comes to, in the form in which code generation reads
it: the equivalence classes of lambdas, each with the one method that is
generated for it, and for every lambda the call site that refers to this
method and the variables to pass. Notes, counts and records of comparisons
are for the reader of reports.

A plan is plain data. The plans that a registry hands out satisfy much more
than the type says, but a plan may also come from elsewhere, and then
nothing of this can be relied upon: the functions below answer `none` for a
lambda whose class is missing, and leave it out of lists.
-/

namespace LambdaSharing

/-- A method that is generated for a class. -/
structure Method where
  /-- The method that encloses the class's first lambda. -/
  owner : Name
  /-- How many classes of this owner were there before. -/
  ordinal : UInt32
deriving DecidableEq, Inhabited

namespace Method

/-- Methods are ordered by owner first. -/
instance : Ord Method := ⟨compareLex (compareOn Method.owner) (compareOn Method.ordinal)⟩

instance : Std.TransOrd Method :=
  inferInstanceAs (Std.TransCmp (compareLex (compareOn Method.owner) (compareOn Method.ordinal)))

instance : Std.LawfulEqOrd Method where
  eq_of_compare {m n} h := by
    obtain ⟨ho, hn⟩ := compareLex_eq_eq.1 h
    have ho := Std.LawfulEqOrd.eq_of_compare (a := m.owner) (b := n.owner) ho
    have hn := Std.LawfulEqOrd.eq_of_compare (a := m.ordinal) (b := n.ordinal) hn
    cases m
    cases n
    simp_all

/-- The name under which the method is generated. -/
def name (m : Method) (t : Interner) : String :=
  "lambda$" ++ t.lookup m.owner ++ "$" ++ toString m.ordinal.toNat

end Method

/-- Where a lambda ended up. Two lambdas share an implementation exactly when
their references are equal. -/
structure Reference where
  classId : ClassId
  /-- The first lambda of the class. -/
  canonical : LambdaId
deriving DecidableEq

/-- Lambdas that share an implementation. -/
structure SharingClass where
  id : ClassId
  /-- The lambda that the method is generated from. -/
  canonical : LambdaId
  /-- All lambdas of the class, in order of submission. -/
  members : Array LambdaId
  /-- The fingerprint that all of them have. -/
  hash : UInt64
  method : Method
deriving DecidableEq

/-- Where a lambda is created, after sharing. -/
structure CallSite where
  lambda : LambdaId
  classId : ClassId
  /-- The method to refer to. -/
  method : Method
  /-- The lambda's own captured variables, whose values are passed. -/
  captures : List SymbolId
deriving DecidableEq

/-- A remark for the reader of reports. -/
inductive Note where
  /-- A method is generated from the lambda. -/
  | implemented (lambda : LambdaId) (method : Method)
  /-- The lambda uses the method generated from another one. -/
  | folded (lambda canonical : LambdaId) (method : Method)
deriving DecidableEq

namespace Note

/-- The name of the note's kind. -/
def kindName : Note → String
  | implemented .. => "LambdaStat"
  | folded .. => "Deduplicated"

/-- The lambda that the note is about. -/
def lambda : Note → LambdaId
  | implemented l _ | folded l _ _ => l

/-- The note as it is reported. -/
def text (t : Interner) : Note → String
  | implemented l m => "lambda " ++ l.text ++ " implemented by " ++ m.name t
  | folded l c m =>
    "deduplicating lambda " ++ l.text ++ " into " ++ c.text ++ " (" ++ m.name t ++ ")"

end Note

/-- The record of a comparison. -/
structure Trace where
  /-- The lambda that was looked up. -/
  candidate : LambdaId
  /-- The first lambda of the class it was compared with. -/
  against : LambdaId
  outcome : Outcome
deriving DecidableEq

/-- What was done, in numbers. -/
structure Stats where
  /-- Lambdas accepted. -/
  submitted : UInt64 := 0
  classes : UInt64 := 0
  /-- Lambdas folded into a class that was there already. -/
  deduplicated : UInt64 := 0
  comparisons : UInt64 := 0
  /-- Comparisons that found a divergence despite equal fingerprints. -/
  collisions : UInt64 := 0
deriving DecidableEq, Inhabited

/-- What sharing comes to. -/
structure Plan where
  /-- The classes, in order of creation. -/
  classes : Array SharingClass := #[]
  /-- A call site for every lambda, in order of submission. -/
  callSites : Array CallSite := #[]
  /-- The class of every lambda. -/
  assignments : Std.ExtTreeMap LambdaId ClassId := ∅
  notes : Array Note := #[]
  stats : Stats := {}
  /-- The comparisons made, if they are to be reported. -/
  traces : Array Trace := #[]

namespace Plan

instance : Inhabited Plan := ⟨{}⟩

/-- The class with a number. -/
def class? (p : Plan) (id : ClassId) : Option SharingClass := p.classes[id.index.toNat]?

/-- Where a lambda ended up. -/
def canonical? (p : Plan) (l : LambdaId) : Option Reference := do
  let id ← p.assignments[l]?
  let c ← p.class? id
  return ⟨id, c.canonical⟩

/-- The methods to generate, one for each class. -/
def methods (p : Plan) : List Method := p.classes.toList.map (·.method)

/-- The lambda that a call site uses in place of its own, if it is another
one. -/
def foldedInto? (p : Plan) (site : CallSite) : Option LambdaId := do
  let c ← p.class? site.classId
  if c.canonical ≠ site.lambda then some c.canonical else none

/-- The folded lambdas, each with the one it uses, in order of submission. -/
def deduplicated (p : Plan) : List (LambdaId × LambdaId) :=
  p.callSites.toList.filterMap fun site => (p.foldedInto? site).map (site.lambda, ·)

/-- How many lambdas the plan covers. -/
def size (p : Plan) : Nat := p.callSites.size

/-- Whether the plan covers no lambda. -/
def isEmpty (p : Plan) : Bool := p.callSites.isEmpty

end Plan

end LambdaSharing
