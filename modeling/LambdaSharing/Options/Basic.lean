import LambdaSharing.Comparison.Binding

/-!
# Options

What a run of the sharing pass may be told: whether to share at all, what to
ask of captures, how deep a walk may go, and which reports to make. The
reports are extra output only and have no influence on what is shared.
-/

namespace LambdaSharing

/-- Which reports are made. -/
structure Reports where
  /-- A note for every lambda that is folded into an existing method. -/
  folded : Bool := false
  /-- A note for every method that is generated. -/
  methods : Bool := false
  /-- A record of every comparison. -/
  comparisons : Bool := false
deriving DecidableEq, Inhabited

namespace Reports

/-- All reports of either. -/
def union (r s : Reports) : Reports :=
  ⟨r.folded || s.folded, r.methods || s.methods, r.comparisons || s.comparisons⟩

/-- The names of the reports that are made, in a fixed order. -/
def names (r : Reports) : List String :=
  (if r.folded then ["DUMP_DEDUPLICATION"] else [])
    ++ (if r.methods then ["DUMP_STATS"] else [])
    ++ (if r.comparisons then ["TRACE_COMPARISONS"] else [])

/-- The report of a given name, by itself. -/
def ofName? : String → Option Reports
  | "DUMP_DEDUPLICATION" => some { folded := true }
  | "DUMP_STATS" => some { methods := true }
  | "TRACE_COMPARISONS" => some { comparisons := true }
  | _ => none

/-- The reports as a number with one bit for each. -/
def bits (r : Reports) : Nat :=
  r.folded.toNat + 2 * r.methods.toNat + 4 * r.comparisons.toNat

end Reports

/-- What a run is told. -/
structure Options where
  /-- Whether lambdas share implementations; if not, each has its own. -/
  deduplicate : Bool := true
  /-- What is asked of captures. -/
  policy : CapturePolicy := .positional
  /-- How deep a walk may go. -/
  maxDepth : Nat := 100000
  /-- Which reports are made. -/
  reports : Reports := {}
deriving DecidableEq, Inhabited

end LambdaSharing
