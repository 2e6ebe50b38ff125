import LambdaSharing.Proofs.Sharing.Lifecycle
import LambdaSharing.Proofs.Sharing.Representation

/-!
# What is generated from a plan

Where a lambda is created, the plan says which method to refer to and which
variables to pass. For most lambdas the method was generated from another
lambda, and so it is this other lambda whose parameters and captures decide
what the method takes. The variables are the lambda's own all the same: they
are looked up in the arena when the call site is recorded, long after a
comparison has found that the two lambdas belong together, and nothing checks
then that they fit.

They do (`Registry.callSites_fit`), and it does not take a comparison to see
this. A lambda that was accepted is alike the first lambda of its class,
lambdas that are alike say the same, and their signatures are a part of what
they say. Nothing depends on the capture policy: to ask for the same variables
is to ask for more.
-/

namespace LambdaSharing

/-- **A call site fits** the method of a class, given the lambda that it
creates and the first lambda of the class. -/
structure CallSite.Fits (site : CallSite) (c : SharingClass) (l canonical : Lambda) : Prop where
  /-- It refers to the method of the class. -/
  method : site.method = c.method
  /-- It passes the variables that its own lambda captures, in order. -/
  passed : site.captures = l.captures.map (·.var)
  /-- The lambdas implement the same interface. -/
  target : l.target = canonical.target
  params : l.params = canonical.params
  /-- There are as many captures as the method takes, each of the type that
  the method takes in its place. -/
  taken : List.Forall₂ (fun own other => own.type = other.type) l.captures canonical.captures

/-- A call site fits if its lambda has the signature of the first lambda. -/
theorem CallSite.Fits.of_signature {site : CallSite} {c : SharingClass} {l canonical : Lambda}
    (hmethod : site.method = c.method) (hpassed : site.captures = l.captures.map (·.var))
    (hsignature : l.signature = canonical.signature) : site.Fits c l canonical where
  method := hmethod
  passed := hpassed
  target := congrArg Signature.target hsignature
  params := congrArg Signature.params hsignature
  taken := by
    have htypes : l.captures.map (·.type) = canonical.captures.map (·.type) :=
      congrArg Signature.captures hsignature
    rwa [← List.forall₂_eq_eq_eq, List.forall₂_map_left_iff, List.forall₂_map_right_iff] at htypes

namespace Registry

variable {a : Arena} {r : Registry a} {g : Ledger}

/-- The signature of an accepted lambda is that of the first lambda of its
class. -/
theorem Coherent.signature_eq (h : r.Coherent) {l : LambdaId} {x : Reference}
    (hx : r.canonical? l = some x) :
    ∃ lambda canonical, a.lambda? l = some lambda ∧ a.lambda? x.canonical = some canonical ∧
      lambda.signature = canonical.signature := by
  obtain ⟨hash, hhash⟩ := h.lambdaHash_of_accepted hx
  obtain ⟨c, hl, hm⟩ := (h.alike_canonical hx).read hhash
  obtain ⟨lambda, hlambda, hsignature⟩ := Arena.lambda?_of_readLambda hl
  obtain ⟨canonical, hcanonical, hsignature'⟩ := Arena.lambda?_of_readLambda hm
  exact ⟨lambda, canonical, hlambda, hcanonical, hsignature.trans hsignature'.symm⟩

/-- A call site in the plan of a registry fits its class. -/
theorem Keeps.callSite_fits (h : r.Keeps g) (hr : r.Coherent) {site : CallSite}
    (hsite : site ∈ r.draft.callSites) :
    ∃ c l canonical, r.draft.class? site.classId = some c ∧ a.lambda? site.lambda = some l ∧
      a.lambda? c.canonical = some canonical ∧ site.Fits c l canonical := by
  rw [h.callSites_eq, List.mem_toArray] at hsite
  -- the site was recorded when this entry was made
  obtain ⟨⟨l, x⟩, he, rfl⟩ := List.mem_map.1 hsite
  have hx : r.canonical? l = some x := by
    rw [h.canonical?_eq]
    exact h.kept.reference?_eq_some_iff.2 he
  obtain ⟨lambda, canonical, hlambda, hcanonical, hsignature⟩ := hr.signature_eq hx
  have hpassed : a.capturedVars l = lambda.captures.map (·.var) := by
    rw [Arena.capturedVars, hlambda]
    rfl
  refine ⟨g.sharingClass a r.options x, lambda, canonical, ?_, hlambda, hcanonical, ?_⟩
  · exact h.class?_eq_some_iff.2 ⟨x, h.kept.mem_classes he, rfl, rfl⟩
  · exact .of_signature rfl hpassed hsignature

/-- **Every call site fits its class.** If lambdas are submitted to a new
registry and then the plan is asked for, there is one, and each of its call
sites refers to the method of its class, passes the captured variables of its
own lambda in order, and creates a lambda with target, parameter types and
capture types of the first lambda of the class, from which the method is
generated. -/
theorem callSites_fit (a : Arena) (o : Options) (ls : List LambdaId) :
    ∃ p, ((new a o).submitAll ls).2.finalize.1 = .ok p ∧
      ∀ site ∈ p.callSites, ∃ c l canonical, p.class? site.classId = some c ∧
        a.lambda? site.lambda = some l ∧ a.lambda? c.canonical = some canonical ∧
        site.Fits c l canonical := by
  have hnew : Reachable o (new a o) := .new
  have hreachable := hnew.run (ls.map .submit)
  have hphase : ((new a o).run (ls.map .submit)).2.phase ≠ .finalized :=
    hnew.phase_run_ne_finalized Phase.noConfusion (by simp)
  obtain ⟨g, hg⟩ := hreachable.keeps
  rw [submitAll_snd, Registry.finalize, if_neg hphase]
  exact ⟨_, rfl, fun site hsite => hg.callSite_fits hreachable.coherent hsite⟩

end Registry

end LambdaSharing
