import LambdaSharing.Proofs.Walk.Growth

/-!
# What was appended is read back

Whoever appends something to an arena keeps nothing but a receipt, a number
for a node or a lambda and a range for a list, and finds the thing again by
it. For nodes and lambdas it is enough that numbers are given out in order.
Lists need more. All of them stand in one array, one behind the other, and
nothing in that array tells where one of them ends and the next one begins;
only the receipt says so, in 32 bits for the beginning and 16 bits for the
length. A receipt that is off by one entry would give a node the arguments of
another one, and no check of a body could ever find out, for they are nodes
like all others.

So a receipt is good if exactly the thing that was appended is read by it
(`Arena.Honours`). It is good when it is given out (`Build.append_eq_ok`), and
it remains good because an arena is only added to (`Arena.Honours.extend`).

The numbers themselves are the other part. They begin with `0` and have no
gaps, so they are known to those who count (`Arena.Continues`), and no number
that has not been given out yet leads anywhere. The receipt for a node is a
place, whose word is its number. So the word of an absent child is as good as
any other: it leads nowhere because it is the last one, and would be given out
only in an arena that has a node for each of the others.
-/

namespace LambdaSharing

/-! ## Things and receipts -/

namespace Arena

/-- **A thing to be appended.** -/
inductive Item where
  /-- A node that has no place in the source text. -/
  | push (kind : NodeKind) (type : TypeId)
  /-- A node with its place in the source text. -/
  | pushSpanned (kind : NodeKind) (type : TypeId) (span : Span)
  /-- A list of children, for a node to come. -/
  | pushList (children : List Child)
  | pushLambda (lambda : Lambda)

/-- **What is given out for it.** -/
inductive Receipt where
  | node (place : Child)
  | range (range : NodeRange)
  | lambda (id : LambdaId)

/-- The place of the node that a receipt is for. -/
def Receipt.place? : Receipt → Option Child
  | node place => some place
  | range _ | lambda _ => none

/-- The lambda that a receipt is for. -/
def Receipt.lambda? : Receipt → Option LambdaId
  | lambda id => some id
  | node _ | range _ => none

/-- **A receipt is good**: what it leads to is the thing that it was given out
for. -/
inductive Honours (a : Arena) : Item → Receipt → Prop where
  | push {kind : NodeKind} {type : TypeId} {place : Child}
    (h : a.nodeIn? place = some ⟨kind, type, .none⟩) : Honours a (.push kind type) (.node place)
  | pushSpanned {kind : NodeKind} {type : TypeId} {span : Span} {place : Child}
    (h : a.nodeIn? place = some ⟨kind, type, span⟩) :
    Honours a (.pushSpanned kind type span) (.node place)
  | pushList {children : List Child} {range : NodeRange} (h : a.list? range = some children)
    (stored : a.Stores range) (hlist : a.list range stored = children) :
    Honours a (.pushList children) (.range range)
  | pushLambda {lambda : Lambda} {id : LambdaId} (h : a.lambda? id = some lambda) :
    Honours a (.pushLambda lambda) (.lambda id)

end Arena

namespace Build

open Arena

/-- Append a thing. -/
def append : Item → Build Receipt
  | .push kind type => Receipt.node <$> push kind type
  | .pushSpanned kind type span => Receipt.node <$> pushSpanned kind type span
  | .pushList children => Receipt.range <$> pushList children
  | .pushLambda lambda => Receipt.lambda <$> pushLambda lambda

/-- **Append things one after another.** -/
def appendAll (items : List Item) : Build (List Receipt) := items.mapM append

end Build

/-- **A kind of node that has a list of children**, in a certain range, behind
those that it has at fixed positions. -/
inductive NodeKind.Lists (range : NodeRange) : NodeKind → List Child → Prop where
  | invoke (receiver : Child) (method : SymbolId) :
    Lists range (.invoke receiver method range) [receiver]
  | new (ctor : SymbolId) : Lists range (.new ctor range) []
  | closure (lambda : LambdaId) : Lists range (.closure lambda range) []
  | block : Lists range (.block range) []

/-- There are no other kinds with a list. -/
theorem NodeKind.exists_lists {kind : NodeKind} {range : NodeRange}
    (h : kind.range? = some range) : ∃ fixed, kind.Lists range fixed := by
  cases kind with
  | invoke receiver method list =>
    obtain rfl := Option.some.inj h
    exact ⟨_, .invoke receiver method⟩
  | new ctor list =>
    obtain rfl := Option.some.inj h
    exact ⟨_, .new ctor⟩
  | closure lambda list =>
    obtain rfl := Option.some.inj h
    exact ⟨_, .closure lambda⟩
  | block list =>
    obtain rfl := Option.some.inj h
    exact ⟨_, .block⟩
  | _ => cases h

namespace Arena

variable {a b c : Arena} {item : Item} {receipt : Receipt} {receipts rest : List Receipt}
  {children fixed : List Child} {range : NodeRange} {kind : NodeKind} {place : Child} {node : Node}

/-! ## Good receipts remain good -/

/-- A list that can be read is one that is stored. -/
theorem Honours.of_list? (h : a.list? range = some children) :
    a.Honours (.pushList children) (.range range) := by
  have hlist := h
  rw [list?_eq] at hlist
  split at hlist
  · next stored => exact .pushList h stored (Option.some.inj hlist)
  · cases hlist

/-- **What is appended later changes nothing.** -/
theorem Honours.extend (h : a.Honours item receipt) (hext : a.ExtendedBy b) :
    b.Honours item receipt := by
  cases h with
  | push h => exact .push (hext.nodeIn? h)
  | pushSpanned h => exact .pushSpanned (hext.nodeIn? h)
  | pushList h => exact .of_list? (hext.list? h)
  | pushLambda h => exact .pushLambda (hext.lambda? h)

/-- The list of a node is read by its receipt. -/
theorem Honours.children? (h : a.Honours (.pushList children) (.range range))
    (hkind : kind.range? = some range) :
    ∃ fixed, kind.Lists range fixed ∧ a.children? kind = some (fixed ++ children) := by
  obtain ⟨fixed, hlists⟩ := NodeKind.exists_lists hkind
  refine ⟨fixed, hlists, ?_⟩
  cases h with
  | pushList h => cases hlists <;> exact Option.map_eq_some_iff.2 ⟨children, h, rfl⟩

/-- A node that is there has the children of its kind. -/
theorem children_of_nodeIn? (hnode : a.nodeIn? place = some node)
    (hchildren : a.children? node.kind = some children) : a.children place = .ok children := by
  unfold Arena.children
  simp only [hnode, hchildren]

/-! ## Numbers that were not given out -/

/-- No word leads to a node if it is too large. -/
theorem nodeIn?_ofWord {w : UInt32} (h : a.nodes.size ≤ w.toNat) :
    a.nodeIn? (.ofWord w) = none := by
  rw [nodeIn?, Child.word_ofWord, Array.getElem?_eq_none h]

/-- No number leads to a lambda if it is too large. -/
theorem lambda?_eq_none {l : LambdaId} (h : a.lambdas.size ≤ l.index.toNat) : a.lambda? l = none :=
  Array.getElem?_eq_none h

/-! ## Numbers in order -/

/-- The numbers of the nodes that receipts are for. -/
def nodeNumbers (receipts : List Receipt) : List Nat :=
  (receipts.filterMap Receipt.place?).map (·.word.toNat)

/-- The numbers of the lambdas that receipts are for. -/
def lambdaNumbers (receipts : List Receipt) : List Nat :=
  (receipts.filterMap Receipt.lambda?).map (·.index.toNat)

theorem nodeNumbers_cons (receipt : Receipt) (rest : List Receipt) :
    nodeNumbers (receipt :: rest) = nodeNumbers [receipt] ++ nodeNumbers rest := by
  cases receipt <;> rfl

theorem lambdaNumbers_cons (receipt : Receipt) (rest : List Receipt) :
    lambdaNumbers (receipt :: rest) = lambdaNumbers [receipt] ++ lambdaNumbers rest := by
  cases receipt <;> rfl

/-- **From an arena to a later one.** Nothing was done but to append, and the
receipts for what was appended go on where the numbers have ended, without
gaps. -/
structure Continues (a : Arena) (receipts : List Receipt) (b : Arena) : Prop where
  grows : a.Grows b
  nodes : List.range a.nodes.size ++ nodeNumbers receipts = List.range b.nodes.size
  lambdas : List.range a.lambdas.size ++ lambdaNumbers receipts = List.range b.lambdas.size

theorem Continues.nil (a : Arena) : a.Continues [] a :=
  ⟨.refl a, List.append_nil _, List.append_nil _⟩

theorem Continues.cons (h : a.Continues [receipt] b) (hrest : b.Continues rest c) :
    a.Continues (receipt :: rest) c where
  grows := h.grows.trans hrest.grows
  nodes := by rw [nodeNumbers_cons, ← List.append_assoc, h.nodes, hrest.nodes]
  lambdas := by rw [lambdaNumbers_cons, ← List.append_assoc, h.lambdas, hrest.lambdas]

/-- A node has the next number. -/
theorem continues_pushSpanned {type : TypeId} {span : Span}
    (h : Build.pushSpanned kind type span a = .ok (place, b)) :
    a.Continues [.node place] b ∧ b.nodeIn? place = some ⟨kind, type, span⟩ := by
  have hgrows : a.Grows b := (Grows.refl a).call (.pushSpanned kind type span) h
  obtain ⟨hplace, rfl⟩ := push_eq_ok h
  refine ⟨⟨hgrows, ?_, List.append_nil _⟩, ?_⟩
  · show List.range a.nodes.size ++ [place.word.toNat] = List.range (a.nodes.push _).size
    rw [hplace, Array.size_push, List.range_succ]
  · show (a.nodes.push ⟨kind, type, span⟩)[place.word.toNat]? = some ⟨kind, type, span⟩
    rw [hplace, Array.getElem?_push_size]

/-- A list has none. -/
theorem continues_pushList (h : Build.pushList children a = .ok (range, b)) :
    a.Continues [.range range] b ∧ b.list? range = some children := by
  have hgrows : a.Grows b := (Grows.refl a).call (.pushList children) h
  obtain ⟨hlist, hnodes, hlambdas⟩ := pushList_eq_ok h
  refine ⟨⟨hgrows, ?_, ?_⟩, hlist⟩
  · rw [hnodes]
    exact List.append_nil _
  · rw [hlambdas]
    exact List.append_nil _

/-- A lambda has the next number among lambdas. -/
theorem continues_pushLambda {lambda : Lambda} {l : LambdaId}
    (h : Build.pushLambda lambda a = .ok (l, b)) :
    a.Continues [.lambda l] b ∧ b.lambda? l = some lambda := by
  have hgrows : a.Grows b := (Grows.refl a).call (.pushLambda lambda) h
  obtain ⟨hl, rfl⟩ := pushLambda_eq_ok h
  refine ⟨⟨hgrows, List.append_nil _, ?_⟩, ?_⟩
  · show List.range a.lambdas.size ++ [l.index.toNat] = List.range (a.lambdas.push lambda).size
    rw [hl, Array.size_push, List.range_succ]
  · show (a.lambdas.push lambda)[l.index.toNat]? = some lambda
    rw [hl, Array.getElem?_push_size]

/-- Lambdas that are numbered in order are all lambdas. -/
theorem lambdaIds_eq (hsize : a.lambdas.size < UInt32.size)
    (h : lambdaNumbers receipts = List.range a.lambdas.size) :
    a.lambdaIds = .ok (receipts.filterMap Receipt.lambda?) := by
  rw [lambdaIds, if_neg (Nat.not_le_of_lt hsize), ← h, lambdaNumbers, List.map_map]
  refine congrArg Except.ok ((List.map_congr_left fun l _ => ?_).trans (List.map_id _))
  exact congrArg LambdaId.mk UInt32.ofNat_toNat

end Arena

/-! ## One thing after another -/

namespace Build

open Arena

variable {a b c : Arena} {item : Item} {items : List Item} {receipt : Receipt}
  {receipts : List Receipt}

/-- What a call returns may be packed up. -/
theorem run_map_eq_ok_iff {α β : Type} {m : Build α} {f : α → β} {y : β} :
    (f <$> m) a = .ok (y, b) ↔ ∃ x, m a = .ok (x, b) ∧ f x = y := by
  show (m a >>= fun (x, b) => pure (f x, b)) = .ok (y, b) ↔ _
  rw [bind_eq_ok_iff]
  constructor
  · rintro ⟨⟨x, b⟩, hx, ⟨⟩⟩
    exact ⟨x, hx, rfl⟩
  · rintro ⟨x, hx, rfl⟩
    exact ⟨(x, b), hx, rfl⟩

/-- **One thing**: its receipt is good, and it has the next number if it has one. -/
theorem append_eq_ok (h : append item a = .ok (receipt, b)) :
    a.Continues [receipt] b ∧ b.Honours item receipt := by
  cases item with
  | push kind type =>
    obtain ⟨place, hplace, rfl⟩ := run_map_eq_ok_iff.1 h
    obtain ⟨hcontinues, hnode⟩ := continues_pushSpanned hplace
    exact ⟨hcontinues, .push hnode⟩
  | pushSpanned kind type span =>
    obtain ⟨place, hplace, rfl⟩ := run_map_eq_ok_iff.1 h
    obtain ⟨hcontinues, hnode⟩ := continues_pushSpanned hplace
    exact ⟨hcontinues, .pushSpanned hnode⟩
  | pushList children =>
    obtain ⟨range, hrange, rfl⟩ := run_map_eq_ok_iff.1 h
    obtain ⟨hcontinues, hlist⟩ := continues_pushList hrange
    exact ⟨hcontinues, .of_list? hlist⟩
  | pushLambda lambda =>
    obtain ⟨l, hl, rfl⟩ := run_map_eq_ok_iff.1 h
    obtain ⟨hcontinues, hlambda⟩ := continues_pushLambda hl
    exact ⟨hcontinues, .pushLambda hlambda⟩

theorem appendAll_cons_eq_ok_iff :
    appendAll (item :: items) a = .ok (receipts, c) ↔
      ∃ receipt b rest, append item a = .ok (receipt, b) ∧ appendAll items b = .ok (rest, c) ∧
        receipts = receipt :: rest := by
  have hcons : appendAll (item :: items) a =
      append item a >>= fun (receipt, b) => ((receipt :: ·) <$> appendAll items) b := by
    rw [appendAll, List.mapM_cons]
    rfl
  rw [hcons, bind_eq_ok_iff]
  constructor
  · rintro ⟨⟨receipt, b⟩, hitem, hmap⟩
    obtain ⟨rest, hrest, rfl⟩ := run_map_eq_ok_iff.1 hmap
    exact ⟨receipt, b, rest, hitem, hrest, rfl⟩
  · rintro ⟨receipt, b, rest, hitem, hrest, rfl⟩
    exact ⟨(receipt, b), hitem, run_map_eq_ok_iff.2 ⟨rest, hrest, rfl⟩⟩

/-- **Any number of things**: all receipts are good at the end. -/
theorem appendAll_eq_ok (h : appendAll items a = .ok (receipts, b)) :
    a.Continues receipts b ∧ List.Forall₂ b.Honours items receipts := by
  induction items generalizing a receipts with
  | nil =>
    cases h
    exact ⟨.nil _, .nil⟩
  | cons item items ih =>
    obtain ⟨receipt, stored, rest, hitem, hrest, rfl⟩ := appendAll_cons_eq_ok_iff.1 h
    obtain ⟨hcontinues, hhonours⟩ := append_eq_ok hitem
    obtain ⟨hcontinues', hall⟩ := ih hrest
    exact ⟨hcontinues.cons hcontinues', .cons (hhonours.extend hcontinues'.grows.extendedBy) hall⟩

end Build

namespace Arena

/-- **Everything is read back by its receipt, and nothing else is read at all.**
Let things be appended to an empty arena, without a refusal, and let the arena
then grow in any way. Every receipt leads to the thing that it was given out
for. Nodes and lambdas are numbered in the order in which they came, from `0` and
without gaps, and what is not a number of theirs leads nowhere; for the place of
an absent child this is so as long as there are fewer nodes than words. A node
with a list has the children that are in that list, behind those that its kind
has at fixed positions. -/
theorem receipts_honoured {items : List Item} {receipts : List Receipt} {a b : Arena}
    (h : Build.appendAll items {} = .ok (receipts, a)) (hgrows : a.Grows b) :
    List.Forall₂ b.Honours items receipts ∧
    nodeNumbers receipts = List.range a.nodes.size ∧
    lambdaNumbers receipts = List.range a.lambdas.size ∧
    (a.lambdas.size < UInt32.size → a.lambdaIds = .ok (receipts.filterMap Receipt.lambda?)) ∧
    (∀ w, b.nodes.size ≤ w.toNat → b.nodeIn? (.ofWord w) = none) ∧
    (b.nodes.size < UInt32.size → b.nodeIn? none = none) ∧
    (∀ l : LambdaId, b.lambdas.size ≤ l.index.toNat → b.lambda? l = none) ∧
    ∀ children range, (.pushList children, .range range) ∈ items.zip receipts →
      ∀ kind, NodeKind.range? kind = some range →
        ∃ fixed, kind.Lists range fixed ∧ b.children? kind = some (fixed ++ children) ∧
          ∀ place node, b.nodeIn? place = some node → node.kind = kind →
            b.children place = .ok (fixed ++ children) := by
  obtain ⟨hcontinues, hall⟩ := Build.appendAll_eq_ok h
  have hhonours : List.Forall₂ b.Honours items receipts :=
    hall.imp fun item receipt hgood => hgood.extend hgrows.extendedBy
  have hnodes : nodeNumbers receipts = List.range a.nodes.size := hcontinues.nodes
  have hlambdas : lambdaNumbers receipts = List.range a.lambdas.size := hcontinues.lambdas
  refine ⟨hhonours, hnodes, hlambdas, fun hsize => lambdaIds_eq hsize hlambdas,
    fun w => nodeIn?_ofWord, nodeIn?_none, fun l => lambda?_eq_none, ?_⟩
  intro children range hmem kind hkind
  have hlist := (List.forall₂_iff_zip.1 hhonours).2 hmem
  obtain ⟨fixed, hlists, hchildren⟩ := hlist.children? hkind
  refine ⟨fixed, hlists, hchildren, ?_⟩
  rintro place node hnode rfl
  exact children_of_nodeIn? hnode hchildren

/-- Two lists behind one another, and a third one that comes later. -/
theorem receipts_of_two_lists :
    let lambda : Lambda := { owner := .empty, target := ⟨12⟩, params := [], body := nodeAt 3 }
    let first := [nodeAt 1, none, nodeAt 0]
    let second := [nodeAt 2]
    let call := NodeKind.invoke (nodeAt 0) ⟨5⟩ ⟨0, 3⟩
    let block := NodeKind.block ⟨3, 1⟩
    let items : List Item :=
      [.push .this .object, .pushSpanned (.var (.param 0)) .int ⟨3, 7⟩, .pushList [],
        .pushList first, .pushList second, .push call .int, .push block .void, .pushLambda lambda]
    let receipts : List Receipt :=
      [.node (nodeAt 0), .node (nodeAt 1), .range ⟨0, 0⟩, .range ⟨0, 3⟩, .range ⟨3, 1⟩,
        .node (nodeAt 2), .node (nodeAt 3), .lambda ⟨0⟩]
    let a : Arena :=
      { nodes := #[⟨.this, .object, .none⟩, ⟨.var (.param 0), .int, ⟨3, 7⟩⟩, ⟨call, .int, .none⟩,
          ⟨block, .void, .none⟩]
        lists := #[nodeAt 1, none, nodeAt 0, nodeAt 2]
        lambdas := #[lambda] }
    let b : Arena := { a with lists := a.lists.appendList first }
    Build.appendAll items {} = .ok (receipts, a) ∧ a.Grows b ∧
      List.Forall₂ b.Honours items receipts ∧ nodeNumbers receipts = [0, 1, 2, 3] ∧
      b.nodeIn? (nodeAt 4) = none ∧ b.nodeIn? none = none ∧ b.lambda? ⟨1⟩ = none ∧
      b.children (nodeAt 2) = .ok (nodeAt 0 :: first) ∧ b.children (nodeAt 3) = .ok second := by
  intro lambda first second call block items receipts a b
  have h : Build.appendAll items {} = .ok (receipts, a) := rfl
  have hlater : Build.appendAll [.pushList first] a = .ok ([.range ⟨4, 3⟩], b) := rfl
  have hgrows := (Build.appendAll_eq_ok hlater).1.grows
  obtain ⟨hhonours, hnodes, -, -, hnode, habsent, hlambda, hchildren⟩ :=
    receipts_honoured h hgrows
  refine ⟨h, hgrows, hhonours, hnodes, hnode 4 (by decide), habsent (by decide),
    hlambda ⟨1⟩ (by decide), ?_, ?_⟩
  · obtain ⟨_, hlists, -, hcall⟩ :=
      hchildren first ⟨0, 3⟩ (by simp [items, receipts]) (.invoke (nodeAt 0) ⟨5⟩ ⟨0, 3⟩) rfl
    cases hlists
    exact hcall _ _ rfl rfl
  · obtain ⟨_, hlists, -, hblock⟩ :=
      hchildren second ⟨3, 1⟩ (by simp [items, receipts]) (.block ⟨3, 1⟩) rfl
    cases hlists
    exact hblock _ _ rfl rfl

end Arena

end LambdaSharing
