import LambdaSharing.Fingerprint.Mix
import LambdaSharing.Fingerprint.Walk

/-!
# Fingerprints of lambdas

A lambda has three fingerprints: one of its signature, one of its body, and
one of both, which is the one lambdas are sorted by. They are computed by a
`Hasher`, a depth budget that serves one computation after another.

`Hasher.lambdaHash_eq` and `Hasher.bodyHash_eq` say that a hasher answers
with the mixture of the words of the lambda, or with the fault that listing
them meets, and is left as it was in either case. So it does not matter which
hasher is asked, and `Arena.lambdaHash` and its companions ask a new one.
-/

namespace LambdaSharing

open Fingerprint

/-- The state of a computation of fingerprints between two requests. -/
structure Hasher where
  /-- The levels it may take. -/
  budget : Budget
deriving DecidableEq

namespace Hasher

/-- A hasher that goes down to a given depth. -/
def new (limit : Nat) : Hasher := ⟨.new limit⟩

/-- The fingerprint of a list of pieces. -/
def hashPieces (h : Hasher) (a : Arena) (pieces : List Piece) :
    Except Fault UInt64 × Hasher :=
  let (answer, budget) := drive mix a 0 pieces [] h.budget
  (answer.map finish, ⟨budget⟩)

/-- The fingerprint of a lambda: its signature, then its body. -/
def lambdaHash (h : Hasher) (a : Arena) (l : LambdaId) : Except Fault UInt64 × Hasher :=
  match a.scope l with
  | .error e => (.error e, h)
  | .ok s => h.hashPieces a (lambdaPieces s)

/-- The fingerprint of a lambda's body alone. -/
def bodyHash (h : Hasher) (a : Arena) (l : LambdaId) : Except Fault UInt64 × Hasher :=
  match a.scope l with
  | .error e => (.error e, h)
  | .ok s => h.hashPieces a [childPiece s s.lambda.body]

/-- The fingerprint of a lambda's signature alone. No node is entered for
it. -/
def signatureHash (h : Hasher) (a : Arena) (l : LambdaId) :
    Except Fault UInt64 × Hasher :=
  match a.scope l with
  | .error e => (.error e, h)
  | .ok s => (.ok (ofWords (signatureWords s.lambda.signature)), h)

/-- A hasher mixes the words of the pieces and gives back all levels. -/
theorem hashPieces_eq (h : Hasher) (a : Arena) (pieces : List Piece) :
    h.hashPieces a pieces =
      ((pieceWords a h.budget.limit h.budget.remaining pieces).map ofWords, h) := by
  rw [hashPieces, drive_eq]
  cases hw : pieceWords a h.budget.limit h.budget.remaining pieces <;>
    simp [resume, Except.map, ofWords, Budget.leaveMany]

end Hasher

namespace Arena

/-- The fingerprint of a lambda within a depth limit. -/
def lambdaHash (a : Arena) (limit : Nat) (l : LambdaId) : Except Fault UInt64 :=
  ((Hasher.new limit).lambdaHash a l).1

/-- The fingerprint of a lambda's body within a depth limit. -/
def bodyHash (a : Arena) (limit : Nat) (l : LambdaId) : Except Fault UInt64 :=
  ((Hasher.new limit).bodyHash a l).1

/-- The fingerprint of a lambda's signature. -/
def signatureHash (a : Arena) (l : LambdaId) : Except Fault UInt64 :=
  ((Hasher.new 0).signatureHash a l).1

/-- **The fingerprint of a lambda is the mixture of its words.** -/
theorem lambdaHash_eq (a : Arena) (limit : Nat) (l : LambdaId) :
    a.lambdaHash limit l = (lambdaWords a limit l).map ofWords := by
  rw [lambdaHash, Hasher.lambdaHash, lambdaWords]
  cases a.scope l with
  | error e => rfl
  | ok s => simp [Hasher.hashPieces_eq, Hasher.new, Budget.new, Budget.remaining, bind,
      Except.bind]

/-- **The fingerprint of a body is the mixture of its words.** -/
theorem bodyHash_eq (a : Arena) (limit : Nat) (l : LambdaId) :
    a.bodyHash limit l = (bodyWords a limit l).map ofWords := by
  rw [bodyHash, Hasher.bodyHash, bodyWords]
  cases a.scope l with
  | error e => rfl
  | ok s => simp [Hasher.hashPieces_eq, Hasher.new, Budget.new, Budget.remaining, bind,
      Except.bind]

end Arena

end LambdaSharing
