import LambdaSharing.Proofs.Content.Paths
import LambdaSharing.Proofs.Fingerprint.Domain
import LambdaSharing.Proofs.Walk.Growth

/-!
# Bodies that are written down bottom-up

An arena takes whatever it is given, and so a walk has to reckon with nodes
that are not there, with lists that are not stored and with bodies that never
end. None of this can happen to those who only use the constructors of
`Build`, and only hand them what other constructors have returned. A position
can then be had of no node that is not there yet, and a lambda can be named
only when it is registered; so whatever a node refers to was there *before*
it (`Arena.LooksBack`).

Before means at a smaller position, and this bounds the walks. Each of their
steps goes to a smaller position: to a child, but also through a closure, for
the lambda was registered before the closure was written down, and its body
was there before that. As the position is smaller by one at least whenever
the depth is greater by one, no walk gets deeper than there are nodes,
however often they are shared and however deep closures are nested
(`Arena.LooksBack.depth_add_le`).

Slots are another matter. They are numbers and not positions, a constructor
takes any, and how many a lambda has is said only when it is registered. That
the slots in its own body are among them has to be asked for
(`Lambda.Declares`).
-/

namespace LambdaSharing

/-! ## Writing down -/

namespace Build

/-- A child that is there, as one of the nodes that were returned before. -/
def Given (built : List NodeId) (c : Child) : Prop := ∃ id ∈ built, c = some id

/-- **The calls that write down a node from given children.** A child may be
absent in four places: as the receiver of a call, as the initial value of a
local, as the value of a return, and as the second branch of a conditional
statement. -/
inductive BottomUp (built : List NodeId) : Build Child → Prop where
  | literal (value : Literal) (type : TypeId) : BottomUp built (Build.literal value type)
  | int (value : Int64) : BottomUp built (Build.int value)
  | long (value : Int64) : BottomUp built (Build.long value)
  | string (value : Name) : BottomUp built (Build.string value)
  | var (slot : Slot) (type : TypeId) : BottomUp built (Build.var slot type)
  | param (index : UInt32) (type : TypeId) : BottomUp built (Build.param index type)
  | capture (index : UInt32) (type : TypeId) : BottomUp built (Build.capture index type)
  | localVar (index : UInt32) (type : TypeId) : BottomUp built (Build.localVar index type)
  | global (symbol : SymbolId) (type : TypeId) : BottomUp built (Build.global symbol type)
  | this (type : TypeId) : BottomUp built (Build.this type)
  | field {receiver : Child} (field : SymbolId) (type : TypeId) (hreceiver : Given built receiver) :
    BottomUp built (Build.field receiver field type)
  | index {receiver index : Child} (type : TypeId) (hreceiver : Given built receiver)
    (hindex : Given built index) : BottomUp built (Build.index receiver index type)
  | invoke {receiver : Child} {args : List Child} (method : SymbolId) (type : TypeId)
    (hreceiver : receiver = none ∨ Given built receiver) (hargs : ∀ c ∈ args, Given built c) :
    BottomUp built (Build.invoke receiver method args type)
  | new {args : List Child} (ctor : SymbolId) (type : TypeId) (hargs : ∀ c ∈ args, Given built c) :
    BottomUp built (Build.new ctor args type)
  | closure {captures : List Child} (lambda : LambdaId)
    (hcaptures : ∀ c ∈ captures, Given built c) : BottomUp built (Build.closure lambda captures)
  | cast {operand : Child} (target : TypeId) (hoperand : Given built operand) :
    BottomUp built (Build.cast target operand)
  | instanceOf {operand : Child} (target : TypeId) (hoperand : Given built operand) :
    BottomUp built (Build.instanceOf operand target)
  | unary {operand : Child} (op : UnaryOp) (type : TypeId) (hoperand : Given built operand) :
    BottomUp built (Build.unary op operand type)
  | binary {left right : Child} (op : BinaryOp) (type : TypeId) (hleft : Given built left)
    (hright : Given built right) : BottomUp built (Build.binary op left right type)
  | assign {target value : Child} (htarget : Given built target) (hvalue : Given built value) :
    BottomUp built (Build.assign target value)
  | conditional {cond thenBranch elseBranch : Child} (type : TypeId) (hcond : Given built cond)
    (hthen : Given built thenBranch) (helse : Given built elseBranch) :
    BottomUp built (Build.conditional cond thenBranch elseBranch type)
  | block {stmts : List Child} (hstmts : ∀ c ∈ stmts, Given built c) :
    BottomUp built (Build.block stmts)
  | declare {init : Child} (slot : UInt32) (type : TypeId)
    (hinit : init = none ∨ Given built init) : BottomUp built (Build.declare slot type init)
  | branch {cond thenBranch elseBranch : Child} (hcond : Given built cond)
    (hthen : Given built thenBranch) (helse : elseBranch = none ∨ Given built elseBranch) :
    BottomUp built (Build.branch cond thenBranch elseBranch)
  | loop {cond body : Child} (hcond : Given built cond) (hbody : Given built body) :
    BottomUp built (Build.loop cond body)
  | ret {value : Child} (hvalue : value = none ∨ Given built value) :
    BottomUp built (Build.ret value)
  | throw {value : Child} (hvalue : Given built value) : BottomUp built (Build.throw value)

end Build

/-- **An arena that was written down bottom-up**, with the nodes that were
returned on the way, all of which have a position. A lambda is registered with
a body that is there, or with none. -/
inductive Arena.BottomUp : Arena → List NodeId → Prop where
  | empty : BottomUp {} []
  | node {a b : Arena} {built : List NodeId} {m : Build Child} {id : NodeId}
    (before : BottomUp a built) (hm : Build.BottomUp built m) (hrun : m a = .ok (some id, b)) :
    BottomUp b (id :: built)
  | lambda {a b : Arena} {built : List NodeId} {l : LambdaId} (before : BottomUp a built)
    (lambda : Lambda) (hbody : lambda.body = none ∨ Build.Given built lambda.body)
    (hrun : Build.pushLambda lambda a = .ok (l, b)) : BottomUp b built

/-- A lambda has the slot that a node of the kind refers to, if it refers to
one. -/
def Lambda.Declares (lambda : Lambda) : NodeKind → Prop
  | .var slot => ∀ declared, lambda.slotCount? slot = some declared → slot.number.toNat < declared
  | .declare slot _ _ => slot < lambda.localCount
  | _ => True

/-- The lambda has a slot if the walks find it among its slots. -/
theorem Scope.checkPayload_eq_ok_iff_declares {s : Scope} {id : NodeId} {kind : NodeKind} :
    s.checkPayload id kind.payload = .ok () ↔ s.lambda.Declares kind := by
  cases kind with
  | var slot => exact Scope.checkSlot_eq_ok_iff
  | declare slot type init => exact Scope.checkLocal_eq_ok_iff
  | _ => exact iff_of_true rfl trivial

/-! ## What a call comes to -/

/-- The children of a node are given, and none is missing that its kind
needs. -/
structure NodeKind.Supplied (kind : NodeKind) (built : List NodeId) (children : List Child) :
    Prop where
  complete : kind.missingFrom 0 children = none
  given : ∀ id, some id ∈ children → id ∈ built

namespace NodeKind

variable {built : List NodeId} {kind : NodeKind} {c : Child} {children : List Child} {id : NodeId}

theorem mem_of_given (h : Build.Given built (some id)) : id ∈ built := by
  obtain ⟨_, hid, heq⟩ := h
  exact Option.some.inj heq ▸ hid

/-- Where all children are given, none is missing. -/
theorem missingFrom_of_given (start : Nat) (h : ∀ c ∈ children, Build.Given built c) :
    kind.missingFrom start children = none := by
  refine missingFrom_eq_none_iff.2 fun i hi => ?_
  obtain ⟨_, -, heq⟩ := h none (List.mem_of_getElem? hi)
  cases heq

/-- It is enough that all children are given. -/
theorem Supplied.of_given (h : ∀ c ∈ children, Build.Given built c) :
    kind.Supplied built children :=
  ⟨missingFrom_of_given 0 h, fun id hid => mem_of_given (h (some id) hid)⟩

/-- The first child need not be given if it may be absent. -/
theorem Supplied.of_optional (hkind : kind.mayBeAbsent 0 = true)
    (hc : c = none ∨ Build.Given built c) (h : ∀ c ∈ children, Build.Given built c) :
    kind.Supplied built (c :: children) := by
  rcases hc with rfl | hc
  · refine ⟨?_, fun id hid => ?_⟩
    · rw [missingFrom, if_pos hkind]
      exact missingFrom_of_given 1 h
    · rcases List.mem_cons.1 hid with heq | hid
      · cases heq
      · exact mem_of_given (h (some id) hid)
  · exact .of_given (List.forall_mem_cons.2 ⟨hc, h⟩)

/-- The second branch of a conditional statement need not be given. -/
theorem Supplied.branch {cond thenBranch elseBranch : Child} (hcond : Build.Given built cond)
    (hthen : Build.Given built thenBranch)
    (helse : elseBranch = none ∨ Build.Given built elseBranch) :
    (NodeKind.branch cond thenBranch elseBranch).Supplied built
      [cond, thenBranch, elseBranch] := by
  rcases helse with rfl | helse
  · obtain ⟨i, hi, rfl⟩ := hcond
    obtain ⟨j, hj, rfl⟩ := hthen
    exact ⟨rfl, by simp [hi, hj]⟩
  · exact .of_given (by simp [hcond, hthen, helse])

end NodeKind

/-- **A node of the kind may be written down**: its children are stored and
supplied, and the lambda that it may create is registered. -/
structure Arena.Admits (a : Arena) (built : List NodeId) (kind : NodeKind) : Prop where
  children : ∃ children, a.children? kind = some children ∧ kind.Supplied built children
  registered : ∀ l captures, kind = .closure l captures → ∃ lambda, a.lambda? l = some lambda

namespace Build

/-- **What a call has done that has returned a node.** The children that are
kept as a list, if any, were stored first. Then the node was put behind all
others. -/
structure Wrote (built : List NodeId) (a stored : Arena) (kind : NodeKind) (type : TypeId)
    (id : NodeId) (b : Arena) : Prop where
  extended : a.ExtendedBy stored
  nodes : stored.nodes = a.nodes
  lambdas : stored.lambdas = a.lambdas
  admits : stored.Admits built kind
  pushed : stored.push ⟨kind, type, .none⟩ = .ok (some id, b)

variable {a b : Arena} {built : List NodeId} {id : NodeId} {type : TypeId}

/-- A node without a list of children needs nothing to be stored. -/
theorem wrote_push {kind : NodeKind} (hrange : kind.range? = none)
    (hchildren : kind.Supplied built kind.fixedChildren)
    (h : push kind type a = .ok (some id, b)) : Wrote built a a kind type id b := by
  refine ⟨.refl a, rfl, rfl, ⟨⟨kind.fixedChildren, ?_, hchildren⟩, ?_⟩, h⟩
  · rw [Arena.children?, hrange]
  · rintro l captures rfl
    cases hrange

/-- A node with a list of children comes after the list. -/
theorem wrote_pushWithList {list : List Child} (kind : NodeRange → NodeKind)
    (hrange : ∀ range, (kind range).range? = some range)
    (hchildren : ∀ range, (kind range).Supplied built ((kind range).fixedChildren ++ list))
    (hregistered : ∀ range l captures, kind range = .closure l captures →
      ∃ lambda, a.lambda? l = some lambda)
    (h : (do push (kind (← pushList list)) type : Build Child) a = .ok (some id, b)) :
    ∃ stored range, Wrote built a stored (kind range) type id b := by
  change (a.pushList list >>= fun (range, stored) => push (kind range) type stored) = _ at h
  obtain ⟨⟨range, stored⟩, hstore, hpush⟩ := bind_eq_ok_iff.1 h
  obtain ⟨hlist, hnodes, hlambdas⟩ := Arena.pushList_eq_ok hstore
  have hextended : a.ExtendedBy stored := extends_pushList list a stored range hstore
  refine ⟨stored, range, hextended, hnodes, hlambdas, ⟨⟨_, ?_, hchildren range⟩, ?_⟩, hpush⟩
  · simp only [Arena.children?, hrange range, hlist, Option.map_some]
  · intro l captures hkind
    obtain ⟨lambda, hlambda⟩ := hregistered range l captures hkind
    exact ⟨lambda, hextended.lambda? hlambda⟩

/-- **Every call that has returned a node has written it down**, with its
children in place. -/
theorem BottomUp.wrote {m : Build Child} (hm : BottomUp built m) (h : m a = .ok (some id, b)) :
    ∃ stored kind type, Wrote built a stored kind type id b := by
  cases hm with
  | invoke method type hreceiver hargs =>
    obtain ⟨stored, range, hwrote⟩ := wrote_pushWithList (.invoke _ method) (fun _ => rfl)
      (fun _ => .of_optional rfl hreceiver hargs) (fun _ _ _ => nofun) h
    exact ⟨stored, _, type, hwrote⟩
  | new ctor type hargs =>
    obtain ⟨stored, range, hwrote⟩ := wrote_pushWithList (.new ctor) (fun _ => rfl)
      (fun _ => .of_given hargs) (fun _ _ _ => nofun) h
    exact ⟨stored, _, type, hwrote⟩
  | block hstmts =>
    obtain ⟨stored, range, hwrote⟩ := wrote_pushWithList .block (fun _ => rfl)
      (fun _ => .of_given hstmts) (fun _ _ _ => nofun) h
    exact ⟨stored, _, .void, hwrote⟩
  | closure lambda hcaptures =>
    change (Build.closure lambda _).run a = _ at h
    rw [Build.closure, StateT.run_bind, StateT.run_get, pure_bind] at h
    cases hlambda : a.lambda? lambda with
    | none =>
      rw [hlambda] at h
      cases h
    | some nested =>
      rw [hlambda] at h
      obtain ⟨stored, range, hwrote⟩ := wrote_pushWithList (.closure lambda) (fun _ => rfl)
        (fun _ => .of_given hcaptures) (by rintro _ _ _ ⟨⟩; exact ⟨nested, hlambda⟩) h
      exact ⟨stored, _, nested.target, hwrote⟩
  | @assign target value htarget hvalue =>
    change (Build.assign target value).run a = _ at h
    rw [Build.assign, StateT.run_bind, StateT.run_get, pure_bind] at h
    cases hnode : a.nodeIn? target with
    | none =>
      rw [hnode] at h
      cases h
    | some node =>
      rw [hnode] at h
      exact ⟨a, _, node.type,
        wrote_push rfl (.of_given (by simp [NodeKind.fixedChildren, htarget, hvalue])) h⟩
  | declare slot type hinit =>
    exact ⟨a, _, .void, wrote_push rfl (.of_optional rfl hinit (by simp)) h⟩
  | ret hvalue => exact ⟨a, _, .void, wrote_push rfl (.of_optional rfl hvalue (by simp)) h⟩
  | branch hcond hthen helse =>
    exact ⟨a, _, .void, wrote_push rfl (.branch hcond hthen helse) h⟩
  | _ => exact ⟨a, _, _, wrote_push rfl (.of_given (by simp [NodeKind.fixedChildren, *])) h⟩

end Build

/-! ## Looking back -/

namespace Arena

/-- All that a node of the kind refers to is at a smaller position than the
one given: its children, of which those that it needs are there, and the body
of the lambda that it may create, which is registered. -/
structure Supports (a : Arena) (position : Nat) (kind : NodeKind) : Prop where
  children : ∃ children, a.children? kind = some children ∧ kind.missingFrom 0 children = none ∧
    ∀ c, some c ∈ children → c.index.toNat < position
  nested : ∀ l captures, kind = .closure l captures → ∃ lambda, a.lambda? l = some lambda ∧
    ∀ c, lambda.body = some c → c.index.toNat < position

/-- **An arena in which everything refers to what is before it.** -/
structure LooksBack (a : Arena) : Prop where
  node : ∀ id node, a.node? id = some node → a.Supports id.index.toNat node.kind
  body : ∀ l lambda c, a.lambda? l = some lambda → lambda.body = some c →
    c.index.toNat < a.nodes.size

variable {a b : Arena} {built : List NodeId} {kind : NodeKind} {type : TypeId} {id : NodeId}

/-- What is appended changes nothing for the nodes that are there. -/
theorem Supports.extend {position : Nat} (h : a.Supports position kind) (hext : a.ExtendedBy b) :
    b.Supports position kind := by
  obtain ⟨children, hchildren, hcomplete, hbefore⟩ := h.children
  refine ⟨⟨children, hext.children? hchildren, hcomplete, hbefore⟩, ?_⟩
  intro l captures hkind
  obtain ⟨lambda, hlambda, hbody⟩ := h.nested l captures hkind
  exact ⟨lambda, hext.lambda? hlambda, hbody⟩

namespace LooksBack

/-- There is nothing to look back from. -/
theorem empty : ({} : Arena).LooksBack :=
  ⟨fun _ _ h => (by cases h), fun _ _ _ h => (by cases h)⟩

/-- Lists that are stored do not matter to the nodes and lambdas. -/
theorem store {stored : Arena} (h : a.LooksBack) (hext : a.ExtendedBy stored)
    (hnodes : stored.nodes = a.nodes) (hlambdas : stored.lambdas = a.lambdas) :
    stored.LooksBack := by
  refine ⟨fun id node hnode => ?_, fun l lambda c hlambda hbody => ?_⟩
  · rw [Arena.node?, hnodes] at hnode
    exact (h.node id node hnode).extend hext
  · rw [Arena.lambda?, hlambdas] at hlambda
    rw [hnodes]
    exact h.body l lambda c hlambda hbody

/-- A node may be put behind all others if these are all that it refers
to. -/
theorem push (h : a.LooksBack) (hkind : a.Supports a.nodes.size kind)
    (hpush : a.push ⟨kind, type, .none⟩ = .ok (some id, b)) : b.LooksBack := by
  have hext : a.ExtendedBy b := Build.extends_push kind type a b (some id) hpush
  obtain ⟨-, rfl⟩ := push_eq_ok hpush
  refine ⟨fun id' node hnode => ?_, fun l lambda c hlambda hbody => ?_⟩
  · rw [Arena.node?, Array.getElem?_push] at hnode
    split at hnode
    · obtain rfl := Option.some.inj hnode
      rename_i hlast
      rw [hlast]
      exact hkind.extend hext
    · exact (h.node id' node hnode).extend hext
  · rw [Array.size_push]
    exact Nat.lt_succ_of_lt (h.body l lambda c hlambda hbody)

/-- A lambda may be registered if its body is there. -/
theorem pushLambda {lambda : Lambda} {l : LambdaId} (h : a.LooksBack)
    (hbody : ∀ c, lambda.body = some c → c.index.toNat < a.nodes.size)
    (hpush : a.pushLambda lambda = .ok (l, b)) : b.LooksBack := by
  have hext : a.ExtendedBy b := Build.extends_pushLambda lambda a b l hpush
  obtain ⟨-, rfl⟩ := pushLambda_eq_ok hpush
  refine ⟨fun id node hnode => (h.node id node hnode).extend hext, ?_⟩
  intro l' lambda' c hlambda hc
  rw [Arena.lambda?, Array.getElem?_push] at hlambda
  split at hlambda
  · obtain rfl := Option.some.inj hlambda
    exact hbody c hc
  · exact h.body l' lambda' c hlambda hc

/-- A node that may be written down refers to what is there. -/
theorem supports (h : a.LooksBack) (hbuilt : ∀ id ∈ built, id.index.toNat < a.nodes.size)
    (hkind : a.Admits built kind) : a.Supports a.nodes.size kind := by
  obtain ⟨children, hchildren, hsupplied⟩ := hkind.children
  refine ⟨⟨children, hchildren, hsupplied.complete, fun c hc => ?_⟩, ?_⟩
  · exact hbuilt c (hsupplied.given c hc)
  · intro l captures hclosure
    obtain ⟨lambda, hlambda⟩ := hkind.registered l captures hclosure
    exact ⟨lambda, hlambda, fun c => h.body l lambda c hlambda⟩

end LooksBack

/-- **What is written down bottom-up looks back**, and the nodes that were
returned are there. -/
theorem BottomUp.looksBack (h : a.BottomUp built) :
    a.LooksBack ∧ ∀ id ∈ built, id.index.toNat < a.nodes.size := by
  induction h with
  | empty => exact ⟨.empty, nofun⟩
  | node _ hm hrun ih =>
    obtain ⟨hback, hbuilt⟩ := ih
    obtain ⟨stored, kind, type, hwrote⟩ := hm.wrote hrun
    have hback := hback.store hwrote.extended hwrote.nodes hwrote.lambdas
    rw [← hwrote.nodes] at hbuilt
    refine ⟨hback.push (hback.supports hbuilt hwrote.admits) hwrote.pushed, ?_⟩
    obtain ⟨hid, rfl⟩ := push_eq_ok hwrote.pushed
    intro id hmem
    rw [Array.size_push]
    rcases List.mem_cons.1 hmem with rfl | hmem
    · exact Nat.lt_succ_of_le (Nat.le_of_eq hid)
    · exact Nat.lt_succ_of_lt (hbuilt id hmem)
  | @lambda a b built l _ lambda hbody hrun ih =>
    obtain ⟨hback, hbuilt⟩ := ih
    have hthere : ∀ c, lambda.body = some c → c.index.toNat < a.nodes.size := by
      intro c hc
      rcases hbody with hnone | hgiven
      · cases hc.symm.trans hnone
      · exact hbuilt c (NodeKind.mem_of_given (hc ▸ hgiven))
    refine ⟨hback.pushLambda hthere hrun, ?_⟩
    obtain ⟨-, rfl⟩ := pushLambda_eq_ok hrun
    exact hbuilt

/-! ## How deep it gets -/

variable {l : LambdaId} {depth : Nat} {s : Scope}

/-- **The deeper a node is reached, the smaller is its position**, so that no
node is reached deeper than there are nodes. -/
theorem LooksBack.depth_add_le (h : a.LooksBack) (hreached : a.Reached l depth s id) :
    depth + id.index.toNat ≤ a.nodes.size := by
  induction hreached with
  | body hlambda hbody =>
    have := h.body _ _ _ hlambda hbody
    omega
  | @step depth s s' id id' _ hbelow ih =>
    have hsmaller : id'.index.toNat < id.index.toNat := by
      cases hbelow with
      | child hnode hchildren hc =>
        obtain ⟨children, hchildren', -, hbefore⟩ := (h.node _ _ hnode).children
        obtain rfl := Option.some.inj (hchildren.symm.trans hchildren')
        exact hbefore id' hc
      | nested hnode hkind hlambda hbody =>
        obtain ⟨lambda, hlambda', hbefore⟩ := (h.node _ _ hnode).nested _ _ hkind
        obtain rfl := Option.some.inj (hlambda.symm.trans hlambda')
        exact hbefore id' hbody
    omega

/-- A node that is reached is there. -/
theorem LooksBack.exists_node (h : a.LooksBack) (hreached : a.Reached l depth s id) :
    ∃ node, a.node? id = some node := by
  have := h.depth_add_le hreached
  have hdepth : 0 < depth := by
    cases hreached with
    | body => exact Nat.one_pos
    | step => exact Nat.succ_pos _
  exact ⟨_, Array.getElem?_eq_getElem (by omega)⟩

/-- A path that goes on for one more step. -/
theorem follow?_concat {place c x : Child} {path : List Nat} {position : Nat}
    (hpath : a.follow? place path = some c) (hx : a.child? c position = some x) :
    a.follow? place (path ++ [position]) = some x := by
  induction path generalizing place with
  | nil =>
    obtain rfl := Option.some.inj hpath
    exact follow?_cons_eq_some_iff.2 ⟨x, hx, rfl⟩
  | cons first path ih =>
    obtain ⟨next, hnext, hpath⟩ := follow?_cons_eq_some_iff.1 hpath
    exact follow?_cons_eq_some_iff.2 ⟨next, hnext, ih hpath⟩

/-- A node that is reached belongs to the body of the lambda that it is read
in. -/
theorem Reached.exists_path (h : a.Reached l depth s id) :
    a.lambda? s.id = some s.lambda ∧ ∃ path, a.follow? s.lambda.body path = some (some id) := by
  induction h with
  | body hlambda hbody => exact ⟨hlambda, [], congrArg some hbody⟩
  | @step depth s s' id id' _ hbelow ih =>
    cases hbelow with
    | child hnode hchildren hc =>
      obtain ⟨hlambda, path, hpath⟩ := ih
      obtain ⟨position, hposition⟩ := List.getElem?_of_mem hc
      exact ⟨hlambda, path ++ [position], follow?_concat hpath
        (child?_eq_some_iff.2 ⟨id, _, _, rfl, hnode, hchildren, hposition⟩)⟩
    | nested _ _ hlambda hbody => exact ⟨hlambda, [], congrArg some hbody⟩

/-- A node breaks no rule if all that it refers to is before it, and its slots
are those of the lambda that it is read in. -/
theorem Supports.sound {node : Node} (h : a.Supports id.index.toNat node.kind)
    (hslots : s.lambda.Declares node.kind) : a.Sound s node := by
  obtain ⟨children, hchildren, hcomplete, -⟩ := h.children
  have hread : s.children a id node.kind = .ok children :=
    Scope.children_eq_ok_iff.2 ⟨hchildren, hcomplete⟩
  have hpayload : s.checkPayload id node.kind.payload = .ok () :=
    Scope.checkPayload_eq_ok_iff_declares.2 hslots
  obtain ⟨hstored, hpresent⟩ := children_isOk_iff.1 ⟨children, hread⟩
  obtain ⟨hparam, hcapture, hused, hdeclared⟩ := checkPayload_eq_ok_iff.1 hpayload
  refine ⟨hstored, hpresent, hparam, hcapture, hused, hdeclared, fun l captures hkind => ?_⟩
  obtain ⟨lambda, hlambda, -⟩ := h.nested l captures hkind
  exact ⟨lambda, hlambda⟩

end Arena

/-- **What was written down bottom-up is always accepted**, if the slots in the
own body of every lambda are slots that it has. Every registered lambda has a
fingerprint, under every limit that allows for as many levels as there are
nodes in the arena. -/
theorem lambdaHash_of_bottomUp {a : Arena} {built : List NodeId} (h : a.BottomUp built)
    (hslots : ∀ l lambda path id node, a.lambda? l = some lambda →
      a.follow? lambda.body path = some (some id) → a.node? id = some node →
      lambda.Declares node.kind)
    {limit : Nat} (hlimit : a.nodes.size ≤ limit) {l : LambdaId} {lambda : Lambda}
    (hl : a.lambda? l = some lambda) : ∃ hash, a.lambdaHash limit l = .ok hash := by
  obtain ⟨hback, -⟩ := h.looksBack
  have hread : ∃ c, a.readLambda limit l = .ok c := by
    refine Arena.readLambda_isOk_iff.2 ⟨⟨lambda, hl⟩, fun depth s id hreached => ?_⟩
    have hdepth := hback.depth_add_le hreached
    obtain ⟨node, hnode⟩ := hback.exists_node hreached
    obtain ⟨hscope, path, hpath⟩ := hreached.exists_path
    have hdeclares := hslots s.id s.lambda path id node hscope hpath hnode
    exact ⟨by omega, node, hnode, (hback.node id node hnode).sound hdeclares⟩
  obtain ⟨c, hc⟩ := hread
  exact ⟨_, Arena.lambdaHash_eq_ok_iff.2 ⟨c, hc, rfl⟩⟩

/-- The five lambdas can be written down bottom-up: those that are created
come before those that create them. -/
theorem Arena.bottomUp_fiveLambdas : ∃ built, fiveLambdas.BottomUp built := by
  have node₀ := BottomUp.empty.node (.capture 0 .int) rfl
  have node₁ := node₀.node (.ret (.inr ⟨_, .head _, rfl⟩)) rfl
  have node₂ := node₁.node (.this .object) rfl
  have node₃ := node₂.node (.capture 0 .int) rfl
  have node₄ := node₃.node (.ret (.inr ⟨_, .head _, rfl⟩)) rfl
  have node₅ := node₄.node (.int 1) rfl
  have node₆ := node₅.node (.ret (.inr ⟨_, .head _, rfl⟩)) rfl
  have lambda₀ := node₆.lambda (capturing 1 1) (.inr ⟨_, by decide, rfl⟩) rfl
  have lambda₁ := lambda₀.lambda (capturing 2 4) (.inr ⟨_, by decide, rfl⟩) rfl
  have lambda₂ := lambda₁.lambda (capturing 1 6) (.inr ⟨_, by decide, rfl⟩) rfl
  have node₇ := lambda₂.node (.closure ⟨0⟩ (show ∀ c ∈ [nodeAt 0], Build.Given _ c from
    List.forall_mem_singleton.2 ⟨_, by decide, rfl⟩)) rfl
  have node₈ := node₇.node (.closure ⟨1⟩ (show ∀ c ∈ [nodeAt 3], Build.Given _ c from
    List.forall_mem_singleton.2 ⟨_, by decide, rfl⟩)) rfl
  have lambda₃ := node₈.lambda (capturing 1 7) (.inr ⟨_, by decide, rfl⟩) rfl
  exact ⟨_, lambda₃.lambda (capturing 1 8) (.inr ⟨_, by decide, rfl⟩) rfl⟩

/-- The last of them, which creates the second, has a fingerprint where nine
levels are allowed, as there are nine nodes. -/
theorem lambdaHash_of_bottomUp_fiveLambdas :
    (∃ built, Arena.fiveLambdas.BottomUp built) ∧
      (∀ l lambda path id node, Arena.fiveLambdas.lambda? l = some lambda →
        Arena.fiveLambdas.follow? lambda.body path = some (some id) →
        Arena.fiveLambdas.node? id = some node → lambda.Declares node.kind) ∧
      Arena.fiveLambdas.nodes.size ≤ 9 ∧
      Arena.fiveLambdas.lambda? ⟨4⟩ = some (Arena.capturing 1 8) ∧
      ∃ hash, Arena.fiveLambdas.lambdaHash 9 ⟨4⟩ = .ok hash := by
  obtain ⟨built, hbuilt⟩ := Arena.bottomUp_fiveLambdas
  -- every lambda has one capture, and no node refers to another slot
  have hall : ∀ lambda ∈ Arena.fiveLambdas.lambdas, ∀ node ∈ Arena.fiveLambdas.nodes,
      lambda.Declares node.kind := by
    simp [Arena.fiveLambdas, Arena.capturing, Lambda.Declares, Lambda.slotCount?, Slot.number]
  have hslots : ∀ l lambda path id node, Arena.fiveLambdas.lambda? l = some lambda →
      Arena.fiveLambdas.follow? lambda.body path = some (some id) →
      Arena.fiveLambdas.node? id = some node → lambda.Declares node.kind :=
    fun l lambda _ id node hl _ hnode =>
      hall lambda (Array.mem_of_getElem? hl) node (Array.mem_of_getElem? hnode)
  have hlambda : Arena.fiveLambdas.lambda? ⟨4⟩ = some (Arena.capturing 1 8) := rfl
  exact ⟨⟨built, hbuilt⟩, hslots, by decide, hlambda,
    lambdaHash_of_bottomUp hbuilt hslots (by decide) hlambda⟩

end LambdaSharing
