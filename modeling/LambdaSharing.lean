import LambdaSharing.Ident
import LambdaSharing.Operator
import LambdaSharing.Node
import LambdaSharing.Lambda
import LambdaSharing.Arena.Basic
import LambdaSharing.Arena.Build
import LambdaSharing.Content
import LambdaSharing.Interner
import LambdaSharing.Decimal
import LambdaSharing.Walk.Budget
import LambdaSharing.Walk.Fault
import LambdaSharing.Walk.Scope
import LambdaSharing.Fingerprint.Mix
import LambdaSharing.Fingerprint.Pieces
import LambdaSharing.Fingerprint.Walk
import LambdaSharing.Fingerprint.Hasher
import LambdaSharing.Comparison.Divergence
import LambdaSharing.Comparison.Binding
import LambdaSharing.Comparison.Steps
import LambdaSharing.Comparison.Walk
import LambdaSharing.Comparison.Comparer
import LambdaSharing.Options.Basic
import LambdaSharing.Options.Switch
import LambdaSharing.Sharing.Plan
import LambdaSharing.Sharing.Registry
import LambdaSharing.Sharing.CompilationUnit
import LambdaSharing.Sharing.Contract
import LambdaSharing.Cache.Value
import LambdaSharing.Cache.Tree
import LambdaSharing.Cache.Plan
import LambdaSharing.Proofs.Content.Payload
import LambdaSharing.Proofs.Content.Words
import LambdaSharing.Proofs.Walk.Sequence
import LambdaSharing.Proofs.Content.Reading
import LambdaSharing.Proofs.Fingerprint.Spelling
import LambdaSharing.Proofs.Fingerprint.Faithful
import LambdaSharing.Proofs.Fingerprint.Domain
import LambdaSharing.Proofs.Comparison.Exact
import LambdaSharing.Proofs.Comparison.Equivalence
import LambdaSharing.Proofs.Comparison.Fingerprints
import LambdaSharing.Proofs.Sharing.Coherence
import LambdaSharing.Proofs.Sharing.Partition
import LambdaSharing.Proofs.Sharing.Acceptance
import LambdaSharing.Proofs.Sharing.Representation
import LambdaSharing.Proofs.Sharing.Plain
import LambdaSharing.Proofs.Comparison.Reflexivity
import LambdaSharing.Proofs.Sharing.Lifecycle
import LambdaSharing.Proofs.Sharing.Emission
import LambdaSharing.Proofs.Sharing.History
import LambdaSharing.Proofs.Sharing.Methods
import LambdaSharing.Proofs.Sharing.Folding
import LambdaSharing.Proofs.Sharing.Units
import LambdaSharing.Proofs.Sharing.Groups
import LambdaSharing.Proofs.Cache.RoundTrip
import LambdaSharing.Proofs.Walk.Depth
import LambdaSharing.Proofs.Comparison.Mirror
import LambdaSharing.Proofs.Comparison.Policies
import LambdaSharing.Proofs.Comparison.FirstDivergence
import LambdaSharing.Proofs.Comparison.Report
import LambdaSharing.Proofs.Fingerprint.FirstFault
import LambdaSharing.Proofs.Walk.Reuse
import LambdaSharing.Proofs.Walk.Simulation
import LambdaSharing.Proofs.Walk.Growth
import LambdaSharing.Proofs.Sharing.Renaming
import LambdaSharing.Proofs.Walk.BottomUp
import LambdaSharing.Proofs.Arena.Receipts
import LambdaSharing.Proofs.Sharing.Comparisons
import LambdaSharing.Proofs.Sharing.Reports
import LambdaSharing.Proofs.Sharing.Idempotence
import LambdaSharing.Proofs.Sharing.Checking
import LambdaSharing.Proofs.Sharing.Violations
import LambdaSharing.Proofs.Interner.Naming
import LambdaSharing.Proofs.Options.Grammar
import LambdaSharing.Proofs.Options.Switches
import LambdaSharing.Proofs.Options.Depths
