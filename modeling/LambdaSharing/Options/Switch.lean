import LambdaSharing.Decimal
import LambdaSharing.Options.Basic

/-!
# Switches

Options are given as switches, strings of the form `key` or `key=value` that
may begin with the marker `-XD`. The compiler passes all its hidden switches
on, and only six keys are ours: a switch with any other key is skipped,
whatever it says. A switch of ours whose value is not allowed is an error,
and of several the first counts. Of several switches with the same key the
last one counts.

Reading therefore has two stages. `Switch.ofString` cuts a string into key
and value, and `Switch.setting` makes a `Setting` of it, one of the six
things that can be set. `Options.ofSwitches` then applies the settings in
order, each to its own field.
-/

namespace LambdaSharing

/-- A switch, cut into its parts. -/
structure Switch where
  key : String
  /-- What follows the first equals sign, if there is one. -/
  value : Option String
deriving DecidableEq

namespace Switch

/-- The characters behind the marker, or all if there is no marker. -/
def withoutMarker : List Char → List Char
  | '-' :: 'X' :: 'D' :: rest => rest
  | cs => cs

/-- Cut a string at the first equals sign. One marker is dropped first. -/
def ofString (s : String) : Switch :=
  let cs := withoutMarker s.toList
  { key := String.ofList (cs.takeWhile (· ≠ '='))
    value :=
      match cs.dropWhile (· ≠ '=') with
      | [] => none
      | _ :: value => some (String.ofList value) }

/-- The keys that mean something. -/
inductive Key where
  | deduplicate | capturePolicy | maxDepth | noteFolded | noteMethods | trace
deriving DecidableEq

namespace Key

/-- Every key. -/
def all : List Key :=
  [deduplicate, capturePolicy, maxDepth, noteFolded, noteMethods, trace]

/-- The key as it is written. -/
def text : Key → String
  | deduplicate => "deduplicateLambdas"
  | capturePolicy => "dedup.capturePolicy"
  | maxDepth => "dedup.maxDepth"
  | noteFolded => "debug.dumpLambdaToMethodDeduplication"
  | noteMethods => "debug.dumpLambdaToMethodStats"
  | trace => "dedup.trace"

/-- The key that is written so. -/
def ofText? (s : String) : Option Key := all.find? (·.text == s)

/-- What values the key allows, in words. -/
def expected : Key → String
  | capturePolicy => "`positional` or `identity`"
  | maxDepth => "a positive integer"
  | deduplicate | noteFolded | noteMethods | trace => "`true` or `false`"

@[simp] theorem ofText?_text (k : Key) : ofText? k.text = some k := by
  cases k <;> rfl

end Key

end Switch

/-- A key that was given a value it does not allow. -/
structure OptionsError where
  key : Switch.Key
  /-- The value, which is empty if none was given. -/
  value : String
deriving DecidableEq

/-- The error as it is reported. -/
def OptionsError.message (e : OptionsError) : String :=
  "invalid value `" ++ e.value ++ "` for `" ++ e.key.text ++ "`: expected "
    ++ e.key.expected

/-- One field of the options and the value it is to have. -/
inductive Setting where
  | deduplicate (on : Bool)
  | policy (policy : CapturePolicy)
  | maxDepth (depth : Nat)
  | noteFolded (on : Bool)
  | noteMethods (on : Bool)
  | trace (on : Bool)
deriving DecidableEq

/-- The options with one field set. -/
def Setting.apply (o : Options) : Setting → Options
  | deduplicate on => { o with deduplicate := on }
  | policy p => { o with policy := p }
  | maxDepth n => { o with maxDepth := n }
  | noteFolded on => { o with reports := { o.reports with folded := on } }
  | noteMethods on => { o with reports := { o.reports with methods := on } }
  | trace on => { o with reports := { o.reports with comparisons := on } }

namespace Switch

/-- A truth value; a switch without a value turns something on. -/
def truth? : Option String → Option Bool
  | none => some true
  | some "true" => some true
  | some "false" => some false
  | some _ => none

/-- A policy by name. -/
def policy? : Option String → Option CapturePolicy
  | some "positional" => some .positional
  | some "identity" => some .identity
  | _ => none

/-- A depth: a positive number of at most 64 bits. -/
def depth? (value : Option String) : Option Nat :=
  (Decimal.ofSigned? (value.getD "").toList).filter fun n => 1 ≤ n ∧ n < UInt64.size

/-- What a key sets when given a value, if the value is allowed. -/
def Key.setting? (value : Option String) : Key → Option Setting
  | .deduplicate => (truth? value).map .deduplicate
  | .capturePolicy => (policy? value).map .policy
  | .maxDepth => (depth? value).map .maxDepth
  | .noteFolded => (truth? value).map .noteFolded
  | .noteMethods => (truth? value).map .noteMethods
  | .trace => (truth? value).map .trace

/-- What a switch sets: nothing, if its key is not one of ours. -/
def setting (s : Switch) : Except OptionsError (Option Setting) :=
  match Key.ofText? s.key with
  | none => .ok none
  | some key =>
    match key.setting? s.value with
    | none => .error ⟨key, s.value.getD ""⟩
    | some setting => .ok (some setting)

/-- What a list of switches sets, in order, up to the first error. -/
def settings : List Switch → Except OptionsError (List Setting)
  | [] => .ok []
  | s :: rest => do
    let setting ← s.setting
    return setting.toList ++ (← settings rest)

end Switch

/-- The options that a list of switches asks for; what no switch sets is left
at its default. -/
def Options.ofSwitches (switches : List String) : Except OptionsError Options := do
  let settings ← Switch.settings (switches.map Switch.ofString)
  return settings.foldl Setting.apply {}

end LambdaSharing
