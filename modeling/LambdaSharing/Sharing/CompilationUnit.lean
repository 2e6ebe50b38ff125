import LambdaSharing.Sharing.Registry

/-!
# Compilation units

A compilation unit is an arena and a list of its lambdas, in the order in
which the resolver found them. Each unit gets a registry of its own, so units
have nothing to do with one another and may be treated in any order. Within a
unit, a lambda that cannot be read is left out and reported; it does not stop
the others.
-/

namespace LambdaSharing

/-- A compilation unit. -/
structure CompilationUnit where
  arena : Arena
  /-- The lambdas to share, in order of discovery. -/
  lambdas : List LambdaId

/-- What sharing the lambdas of a unit came to. -/
structure UnitOutcome where
  /-- The plan for the lambdas that were accepted. -/
  plan : Plan
  /-- Why the others were not, in order of submission. -/
  failures : List Refusal

/-- Whether every lambda was accepted. -/
def UnitOutcome.isClean (o : UnitOutcome) : Bool := o.failures.isEmpty

/-- Submit lambdas one after the other, and collect the refusals. -/
def Registry.submitAll {a : Arena} (r : Registry a) :
    List LambdaId → List Refusal × Registry a
  | [] => ([], r)
  | l :: rest =>
    match r.submit l with
    | (.ok _, r) => r.submitAll rest
    | (.error e, r) =>
      let (failures, r) := r.submitAll rest
      (e :: failures, r)

namespace CompilationUnit

/-- **Share the lambdas of a unit.** -/
def deduplicate (u : CompilationUnit) (options : Options) : UnitOutcome :=
  let (failures, r) := (Registry.new u.arena options).submitAll u.lambdas
  { plan := r.finalize.1.toOption.getD {}
    failures }

/-- Share the lambdas of several units, each by itself. -/
def deduplicateAll (units : List CompilationUnit) (options : Options) : List UnitOutcome :=
  units.map (·.deduplicate options)

end CompilationUnit

end LambdaSharing
