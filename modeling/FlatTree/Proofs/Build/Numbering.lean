import FlatTree.Proofs.Build.Entries
import FlatTree.Proofs.Document.Census

/-!
# How a tree is numbered

A child that is an expression gets its number when its parent is laid out, and its
record when it comes up in the queue itself. Yet numbers and records agree: an
expression is laid out as the one whose number it has, because the queue never runs
empty before the end. The slots go along: expressions have them in the order of
their numbers, one after another.

- `Layout.exists_before`: each expression is laid out where those before it in the
  order have left off, and what is laid out stays.
- `Tree.lt_numberedBefore`: an expression is numbered before it is laid out.
- `Tree.filterMap_index?_held`: the numbers in the slots go up one by one.
- `Tree.Numbered`: what a buffer is like in which a tree is numbered in an order.
- `Regions.InOrder`: what that means to a reader.
- `Tree.numbered_layOut`: a tree is numbered breadth first.
-/

namespace FlatTree

/-- The number that a slot holds, if it refers to an expression. -/
def Slot.index? : Slot → Option Nat
  | scalar _ => none
  | expression index => some index

namespace Tree

/-! ## Numbers in order -/

/-- The slot at which the children of an expression start: those of all before it come first,
after slot 0. -/
def firstSlot (order : List HeadedNode) (index : Nat) : Nat :=
  1 + ((order.take index).map fun node => node.children.length).sum

/-- What the slots hold: slot 0 the root, and the others the children of one expression after
another. -/
def held (order : List HeadedNode) : List Slot :=
  .expression 0 :: slots 1 (order.flatMap HeadedNode.children)

/-- The texts that go to the heap before those of an expression. -/
def textsBefore (order : List HeadedNode) (index : Nat) : List String :=
  (order.take index).flatMap HeadedNode.texts

theorem firstSlot_succ {order : List HeadedNode} {index : Nat} {node : HeadedNode}
    (h : order[index]? = some node) :
    firstSlot order (index + 1) = firstSlot order index + node.children.length := by
  rw [firstSlot, List.take_add_one, h, List.map_append, List.sum_append, firstSlot, Nat.add_assoc]
  rfl

theorem length_held (order : List HeadedNode) :
    (held order).length = firstSlot order order.length := by
  rw [held, List.length_cons, length_slots, List.length_flatMap, firstSlot, List.take_length,
    Nat.add_comm]

/-- The texts of all expressions are those before one, its own and those after it. -/
theorem flatMap_texts_eq {order : List HeadedNode} {index : Nat} {first : HeadedNode}
    (h : order[index]? = some first) :
    order.flatMap HeadedNode.texts = textsBefore order index ++
      first.head :: (first.children.filterMap text? ++
        (order.drop (index + 1)).flatMap HeadedNode.texts) := by
  obtain ⟨hindex, rfl⟩ := List.getElem?_eq_some_iff.mp h
  conv_lhs => rw [← List.take_append_drop index order]
  rw [List.flatMap_append, List.drop_eq_getElem_cons hindex, List.flatMap_cons, HeadedNode.texts]
  rfl

/-- All expressions among trees are in or below those that are in none. -/
theorem allExpressions_headedNodes (trees : List Tree) :
    allExpressions ((headedNodes trees).map fun first => node first.head first.children) =
      allExpressions trees := by
  induction trees with
  | nil => rfl
  | cons tree rest ih =>
    cases tree with
    | scalar value => rw [headedNodes, ih, allExpressions, expressions, Nat.zero_add]
    | node head children =>
      rw [headedNodes, List.map_cons, allExpressions, ih, allExpressions]

/-- The order has every expression of a tree once. -/
theorem length_breadthFirst (queue : List HeadedNode) :
    (breadthFirst queue).length =
      allExpressions (queue.map fun first => node first.head first.children) := by
  fun_induction breadthFirst queue with
  | case1 => rfl
  | case2 first queue ih =>
    rw [List.map_append, allExpressions_append, allExpressions_headedNodes] at ih
    rw [List.length_cons, ih, List.map_cons, allExpressions, expressions]
    omega

/-- An expression is found before it is laid out: there is always one in the queue. -/
theorem lt_numberedBefore (queue : List HeadedNode) :
    ∀ index < (breadthFirst queue).length,
      index < queue.length + numberedBefore (breadthFirst queue) index := by
  fun_induction breadthFirst queue with
  | case1 => exact fun index h => absurd h (Nat.not_lt_zero index)
  | case2 first queue ih =>
    intro index hindex
    cases index with
    | zero => exact Nat.lt_add_right _ (Nat.succ_pos _)
    | succ index =>
      have hrest := ih index (Nat.lt_of_succ_lt_succ hindex)
      rw [numberedBefore, List.take_succ_cons, List.flatMap_cons, List.length_append,
        List.length_cons]
      rw [List.length_append, numberedBefore] at hrest
      omega

theorem headedNodes_flatMap (nodes : List HeadedNode) :
    headedNodes (nodes.flatMap HeadedNode.children) =
      nodes.flatMap fun node => headedNodes node.children := by
  induction nodes with
  | nil => rfl
  | cons node rest ih => rw [List.flatMap_cons, headedNodes_append, ih, List.flatMap_cons]

theorem filterMap_index?_slots (trees : List Tree) :
    ∀ next, (slots next trees).filterMap Slot.index? =
      List.range' next (headedNodes trees).length := by
  induction trees with
  | nil => exact fun _ => rfl
  | cons tree rest ih =>
    intro next
    cases tree with
    | scalar value => exact ih next
    | node head children => exact congrArg (next :: ·) (ih (next + 1))

/-- The numbers in the slots are those of the expressions, in order. -/
theorem filterMap_index?_held (root : HeadedNode) :
    (held (breadthFirst [root])).filterMap Slot.index? =
      List.range (breadthFirst [root]).length := by
  have horder := congrArg List.length (breadthFirst_eq [root])
  rw [List.length_append, List.length_singleton, ← headedNodes_flatMap] at horder
  rw [horder, Nat.add_comm, List.range_succ_eq_map]
  show 0 :: (slots 1 _).filterMap Slot.index? = _
  rw [filterMap_index?_slots, List.range'_eq_map_range]
  simp only [Nat.add_comm 1]

/-- What the slots of expressions hold belongs to one of them. -/
theorem exists_of_getElem?_slots_flatMap {s : Slot} :
    ∀ {nodes : List HeadedNode} {next slot : Nat},
      (slots next (nodes.flatMap HeadedNode.children))[slot]? = some s →
        ∃ index node i, nodes[index]? = some node ∧
          1 + slot = firstSlot nodes index + i ∧ i < node.children.length ∧
          (slots (next + numberedBefore nodes index) node.children)[i]? = some s
  | [], _, _, h => by cases h
  | first :: rest, next, slot, h => by
    rw [List.flatMap_cons, slots_append] at h
    by_cases hslot : slot < first.children.length
    · rw [List.getElem?_append_left (by rwa [length_slots])] at h
      exact ⟨0, first, slot, rfl, rfl, hslot, h⟩
    · rw [List.getElem?_append_right (by rw [length_slots]; omega), length_slots] at h
      obtain ⟨index, node, i, hnode, heq, hi, hs⟩ := exists_of_getElem?_slots_flatMap h
      refine ⟨index + 1, node, i, hnode, ?_, hi, ?_⟩
      · rw [firstSlot] at heq ⊢
        rw [List.take_succ_cons, List.map_cons, List.sum_cons]
        omega
      · rwa [numberedBefore, List.take_succ_cons, List.flatMap_cons, List.length_append,
          ← Nat.add_assoc]

/-- What stands at a slot that refers to an expression other than the root. -/
theorem exists_of_getElem?_held {order : List HeadedNode} {slot target : Nat}
    (htarget : 0 < target) (h : (held order)[slot]? = some (.expression target)) :
    ∃ index node m child, order[index]? = some node ∧ target = 1 + numberedBefore order index + m ∧
      (headedNodes node.children)[m]? = some child ∧
      firstSlot order index ≤ slot ∧ slot < firstSlot order (index + 1) := by
  cases slot with
  | zero =>
    cases h
    exact absurd htarget (Nat.lt_irrefl 0)
  | succ slot =>
    obtain ⟨index, node, i, hnode, heq, hi, hs⟩ := exists_of_getElem?_slots_flatMap h
    obtain ⟨m, child, rfl, hchild⟩ := exists_of_expression_mem_slots (List.mem_of_getElem? hs)
    have hnext := firstSlot_succ hnode
    exact ⟨index, node, m, child, hnode, rfl, hchild, by omega, by omega⟩

/-- Where the numbers in slots are those of the expressions in order, each of them stands once. -/
theorem existsUnique_of_filterMap_eq_range {slots : List Slot} {n target : Nat}
    (h : slots.filterMap Slot.index? = List.range n) (htarget : target < n) :
    ∃! slot : Nat, slots[slot]? = some (.expression target) := by
  have hmem : target ∈ slots.filterMap Slot.index? := h ▸ List.mem_range.mpr htarget
  obtain ⟨s, hs, hindex⟩ := List.mem_filterMap.mp hmem
  cases s with
  | scalar value => cases hindex
  | expression index =>
    obtain rfl : index = target := Option.some.inj hindex
    obtain ⟨slot, hslot⟩ := List.getElem?_of_mem hs
    have hapart := List.pairwise_iff_getElem.mp
      (List.pairwise_filterMap.mp (h ▸ List.nodup_range : (slots.filterMap Slot.index?).Nodup))
    -- Of two slots with the same number the first would come before the second.
    have hlt : ∀ {i j : Nat}, slots[i]? = some (.expression index) →
        slots[j]? = some (.expression index) → ¬ i < j := by
      intro i j hi hj hij
      obtain ⟨hi', hi⟩ := List.getElem?_eq_some_iff.mp hi
      obtain ⟨hj', hj⟩ := List.getElem?_eq_some_iff.mp hj
      exact hapart i j hi' hj' hij index (by rw [hi]; rfl) index (by rw [hj]; rfl) rfl
    exact ⟨slot, hslot, fun _ hother => Nat.le_antisymm
      (Nat.le_of_not_lt (hlt hslot hother)) (Nat.le_of_not_lt (hlt hother hslot))⟩

end Tree

/-- A word points at the entry that a text was given after those of earlier texts. -/
def RawBuffer.PointsAfter (raw : RawBuffer) (word : UInt64) (earlier : List String)
    (text : String) : Prop :=
  word = (Heap.entries earlier).size.toUInt64 ∧
    Heap.Holds raw.strings (Heap.entries earlier).size text

/-- What a buffer is like in which the expressions of a tree are numbered in an order. -/
structure Tree.Numbered (policy : RunPolicy) (order : List HeadedNode) (raw : RawBuffer) :
    Prop where
  /-- A record has the offset of the head and the slots of the children. The slots start at 1,
  each expression has those from where the one before ends, and the last ends with the slots. -/
  records : ∀ index node, order[index]? = some node → ∃ word,
    raw.exprs[index]? = some ⟨word, (firstSlot order index).toUInt64,
      (firstSlot order (index + 1)).toUInt64⟩ ∧
    raw.PointsAfter word (textsBefore order index) node.head
  widths : ∀ index node, order[index]? = some node →
    firstSlot order (index + 1) = firstSlot order index + node.children.length
  first : firstSlot order 0 = 1
  last : firstSlot order order.length = raw.args.size
  counted : order.length = raw.exprs.size
  parallel : raw.args.size = raw.tags.size
  /-- The slots hold the children, with their tags, and nothing else. -/
  slots : StandsAt raw.SlotHolds 0 (held order)
  filled : (held order).length = raw.args.size
  tags : ∀ index node, order[index]? = some node →
    StandsAt raw.TagHolds (firstSlot order index)
      (policy.compress (node.children.map fun child => child.type.code))
  root : raw.TagHolds 0 SlotType.expression.code
  /-- The numbers in the slots go up one by one, each of them stands once, and in the slots of
  an expression with a lower number. -/
  numbers : (held order).filterMap Slot.index? = List.range order.length
  referred : ∀ target < order.length, ∃! slot : Nat, (held order)[slot]? = some (.expression target)
  below : ∀ slot target, 0 < target → (held order)[slot]? = some (.expression target) →
    ∃ index < target, firstSlot order index ≤ slot ∧ slot < firstSlot order (index + 1)
  /-- The heap has an entry for each text, and the word of each text points at its own. -/
  heap : raw.strings = Heap.entries (order.flatMap HeadedNode.texts)
  texts : ∀ index node i child text, order[index]? = some node → node.children[i]? = some child →
    child.text? = some text → ∃ word, raw.args[firstSlot order index + i]? = some word ∧
      raw.PointsAfter word (textsBefore order index ++
        node.head :: (node.children.take i).filterMap Tree.text?) text

/-- The expressions of a buffer have their slots one after another, and refer to later ones
only. -/
structure Regions.InOrder (r : Regions) (order : List HeadedNode) : Prop where
  children : ∀ index node, order[index]? = some node →
    r.children index = .ok ⟨Tree.firstSlot order index, Tree.firstSlot order (index + 1)⟩
  descends : ∀ index target, r.Refers index target → index < target
  acyclic : ∀ index n, ¬ r.Chain (n + 1) index index

namespace Layout

variable {policy : RunPolicy} {order : List HeadedNode} {index : Nat} {node : HeadedNode}

/-- Each expression is laid out after those before it, and what it adds stays. -/
theorem exists_before (hvalid : policy.Valid) {nodes : List HeadedNode} {l : Layout}
    (hparallel : l.raw.args.size = l.raw.tags.size) {index : Nat} {node : HeadedNode}
    (hnode : nodes[index]? = some node) :
    ∃ before, before = (nodes.take index).foldl (addNode policy) l ∧
      AddsAll policy (nodes.take index) l before ∧
      Adds policy node before (before.addNode policy node) ∧
      (before.addNode policy node).raw.Extends (nodes.foldl (addNode policy) l).raw := by
  obtain ⟨hindex, rfl⟩ := List.getElem?_eq_some_iff.mp hnode
  have hbefore := foldl_addNode hvalid (nodes.take index) l hparallel
  have hadds := addNode_adds hvalid _ nodes[index] hbefore.parallel
  have hafter := foldl_addNode hvalid (nodes.drop (index + 1)) _ hadds.parallel
  refine ⟨_, rfl, hbefore, hadds, ?_⟩
  have hsplit : nodes = nodes.take index ++ nodes[index] :: nodes.drop (index + 1) := by
    rw [← List.drop_eq_getElem_cons hindex, List.take_append_drop]
  have hfold := congrArg (List.foldl (addNode policy) l) hsplit
  rw [List.foldl_append, List.foldl_cons] at hfold
  rw [hfold]
  exact hafter.grows

/-- The slots of expressions that are laid out one after another follow each other. -/
theorem standsAt_foldl_addNode (hvalid : policy.Valid) :
    ∀ (nodes : List HeadedNode) (l : Layout), l.raw.args.size = l.raw.tags.size →
      StandsAt (nodes.foldl (addNode policy) l).raw.SlotHolds l.raw.args.size
        (Tree.slots l.nextExpression (nodes.flatMap HeadedNode.children))
  | [], l, _ => .nil
  | node :: rest, l, hparallel => by
    have hadds := addNode_adds hvalid l node hparallel
    have hrest := foldl_addNode hvalid rest _ hadds.parallel
    have ih := standsAt_foldl_addNode hvalid rest _ hadds.parallel
    rw [List.flatMap_cons, Tree.slots_append]
    refine .append (hrest.grows.stores hadds.stores).args ?_
    rwa [Tree.length_slots, ← hadds.args, ← hadds.next]

/-- An expression is laid out where those before it in the order have left off. -/
theorem exists_initial_before (hvalid : policy.Valid) (hnode : order[index]? = some node) :
    ∃ before : Layout, before.raw.args.size = Tree.firstSlot order index ∧
      before.raw.exprs.size = index ∧
      before.raw.strings = Heap.entries (Tree.textsBefore order index) ∧
      before.nextExpression = 1 + Tree.numberedBefore order index ∧
      Adds policy node before (before.addNode policy node) ∧
      (before.addNode policy node).raw.Extends (order.foldl (addNode policy) initial).raw := by
  obtain ⟨before, rfl, hbefore, hadds, hgrows⟩ := exists_before hvalid (l := initial) rfl hnode
  have hindex := (List.getElem?_eq_some_iff.mp hnode).1
  refine ⟨_, hbefore.args, ?_, ?_, hbefore.next, hadds, hgrows⟩
  · rw [hbefore.exprs, List.length_take_of_le (Nat.le_of_lt hindex)]
    exact Nat.zero_add index
  · rw [strings_foldl_addNode]
    exact ByteArray.empty_append

theorem strings_foldl_initial (order : List HeadedNode) :
    (order.foldl (addNode policy) initial).raw.strings =
      Heap.entries (order.flatMap HeadedNode.texts) :=
  (strings_foldl_addNode order initial).trans ByteArray.empty_append

/-- The record of an expression points at the entry of its head, and has its slots. -/
theorem exists_record (hvalid : policy.Valid) (hnode : order[index]? = some node) :
    ∃ word, (order.foldl (addNode policy) initial).raw.exprs[index]? =
        some ⟨word, (Tree.firstSlot order index).toUInt64,
          (Tree.firstSlot order (index + 1)).toUInt64⟩ ∧
      (order.foldl (addNode policy) initial).raw.PointsAfter word
        (Tree.textsBefore order index) node.head := by
  obtain ⟨before, hargs, hexprs, hstrings, -, -, hgrows⟩ := exists_initial_before hvalid hnode
  have hrecord := RawBuffer.Extends.getElem?_of_append hgrows.exprs
    (before.getElem?_exprs_addNode node)
  rw [hexprs, hargs, ← Tree.firstSlot_succ hnode] at hrecord
  refine ⟨_, hrecord, ?_, ?_⟩
  · rw [RawBuffer.nextText, hstrings]
  · have hsplit := Tree.flatMap_texts_eq hnode
    rw [strings_foldl_initial, hsplit]
    exact Heap.holds_entries _ _ _

/-- The word of a text points at its own entry. -/
theorem exists_textWord (hvalid : policy.Valid) (hnode : order[index]? = some node) {i : Nat}
    {child : Tree} {text : String} (hchild : node.children[i]? = some child)
    (htext : child.text? = some text) :
    ∃ word, (order.foldl (addNode policy) initial).raw.args[Tree.firstSlot order index + i]? =
        some word ∧
      (order.foldl (addNode policy) initial).raw.PointsAfter word
        (Tree.textsBefore order index ++
          node.head :: (node.children.take i).filterMap Tree.text?) text := by
  obtain ⟨before, hargs, hexprs, hstrings, -, -, hgrows⟩ := exists_initial_before hvalid hnode
  have hword := RawBuffer.Extends.getElem?_of_append hgrows.args
    (before.getElem?_args_addNode hchild htext)
  rw [hargs, hstrings, ← Heap.entries_append] at hword
  refine ⟨_, hword, rfl, ?_⟩
  have hsplit := Tree.flatMap_texts_eq hnode
  have hchildren : node.children.filterMap Tree.text? =
      (node.children.take i).filterMap Tree.text? ++
        text :: (node.children.drop (i + 1)).filterMap Tree.text? := by
    obtain ⟨hi, rfl⟩ := List.getElem?_eq_some_iff.mp hchild
    conv_lhs => rw [← List.take_append_drop i node.children]
    rw [List.filterMap_append, List.drop_eq_getElem_cons hi, List.filterMap_cons_some htext]
  rw [hchildren] at hsplit
  rw [strings_foldl_initial, hsplit]
  have hholds := Heap.holds_entries (Tree.textsBefore order index ++
    node.head :: (node.children.take i).filterMap Tree.text?) text
      ((node.children.drop (i + 1)).filterMap Tree.text? ++
        (order.drop (index + 1)).flatMap HeadedNode.texts)
  simpa only [List.append_assoc, List.cons_append] using hholds

/-- What is laid out for an expression is stored from there on. -/
theorem stores_foldl_initial (hvalid : policy.Valid) (hnode : order[index]? = some node) :
    (order.foldl (addNode policy) initial).raw.Stores policy index node.head
      (Tree.firstSlot order index)
      (Tree.slots (1 + Tree.numberedBefore order index) node.children) := by
  obtain ⟨before, hargs, hexprs, -, hnext, hadds, hgrows⟩ := exists_initial_before hvalid hnode
  have hstores := hgrows.stores hadds.stores
  rwa [hargs, hexprs, hnext] at hstores

end Layout

namespace Tree

section LayOut

variable {policy : RunPolicy} {head : String} {children : List Tree}

/-- A child has a higher number than its parent. -/
theorem lt_of_child {root first child : HeadedNode} {index m : Nat}
    (hfirst : (breadthFirst [root])[index]? = some first)
    (hchild : (headedNodes first.children)[m]? = some child) :
    index < 1 + numberedBefore (breadthFirst [root]) index + m ∧
      1 + numberedBefore (breadthFirst [root]) index + m < (breadthFirst [root]).length := by
  have hindex := lt_numberedBefore [root] index (List.getElem?_eq_some_iff.mp hfirst).1
  rw [List.length_singleton] at hindex
  exact ⟨by omega, (List.getElem?_eq_some_iff.mp (getElem?_breadthFirst hfirst hchild)).1⟩

theorem firstSlot_length (hvalid : policy.Valid) :
    firstSlot (breadthFirst [⟨head, children⟩]) (breadthFirst [⟨head, children⟩]).length =
      ((node head children).layOut policy).args.size := by
  rw [firstSlot, List.take_length]
  exact (layOut_addsAll hvalid head children).args.symm

/-- The layout of a tree keeps to the order. -/
theorem numbered_breadthFirst (hvalid : policy.Valid) (head : String) (children : List Tree) :
    Numbered policy (breadthFirst [⟨head, children⟩]) ((node head children).layOut policy) where
  records _ _ h := Layout.exists_record hvalid h
  widths _ _ h := firstSlot_succ h
  first := rfl
  last := firstSlot_length hvalid
  counted := (size_exprs_layOut hvalid).symm
  parallel := (layOut_addsAll hvalid head children).parallel
  slots := by
    have hfirst : StandsAt ((node head children).layOut policy).SlotHolds 0
        [.expression 0] :=
      .singleton ⟨0, RawBuffer.Extends.getElem?_of_append
        (layOut_addsAll hvalid head children).grows.args rfl, rfl⟩
    exact hfirst.append
      (Layout.standsAt_foldl_addNode hvalid (breadthFirst [⟨head, children⟩]) Layout.initial rfl)
  filled := (length_held _).trans (firstSlot_length hvalid)
  tags _ _ h := by
    have htags := (Layout.stores_foldl_initial hvalid h).tags
    rwa [map_code_slots] at htags
  root := RawBuffer.Extends.getElem?_of_append
    (layOut_addsAll hvalid head children).grows.tags rfl
  numbers := filterMap_index?_held _
  referred _ h := existsUnique_of_filterMap_eq_range (filterMap_index?_held _) h
  below slot target htarget h := by
    obtain ⟨index, first, m, child, hfirst, rfl, hchild, hrange⟩ :=
      exists_of_getElem?_held htarget h
    exact ⟨index, (lt_of_child hfirst hchild).1, hrange⟩
  heap := Layout.strings_foldl_initial _
  texts _ _ _ _ _ h hchild htext := Layout.exists_textWord hvalid h hchild htext

theorem children_layOut (hvalid : policy.Valid)
    (hsmall : ((node head children).layOut policy).Small) {index : Nat}
    {first : HeadedNode} (h : (breadthFirst [⟨head, children⟩])[index]? = some first) :
    ((node head children).layOut policy).regions.children index =
      .ok ⟨firstSlot (breadthFirst [⟨head, children⟩]) index,
        firstSlot (breadthFirst [⟨head, children⟩]) (index + 1)⟩ := by
  have hchildren := (Layout.stores_foldl_initial hvalid h).children hsmall.args
  rwa [length_slots, ← firstSlot_succ h] at hchildren

/-- An expression refers to later ones only. -/
theorem lt_of_refers (hvalid : policy.Valid)
    (hsmall : ((node head children).layOut policy).Small) {index target : Nat}
    (h : ((node head children).layOut policy).regions.Refers index target) : index < target := by
  obtain ⟨range, block, slot, word, hrange, hblock, htype, hslot, hword, rfl⟩ := h
  obtain ⟨record, hrecord, -⟩ := bind_eq_ok.mp hrange
  have hindex := (Array.getElem?_eq_some_iff.mp (RawBuffer.expression_regions.mp hrecord)).1
  rw [size_exprs_layOut hvalid] at hindex
  have hfirst := List.getElem?_eq_getElem hindex
  have hstores := Layout.stores_foldl_initial hvalid hfirst
  cases (hstores.children hsmall.args).symm.trans hrange
  obtain ⟨s, hs, other, hexpression, hother, hstored⟩ := hstores.exists_storedAs hvalid hblock
    (List.mem_map.mpr ⟨slot, hslot, rfl⟩)
  cases (RawBuffer.argWord_regions.mp hword).symm.trans hother
  cases s with
  | scalar value =>
    rw [htype] at hexpression
    cases value <;> cases hexpression
  | expression child =>
    obtain ⟨m, below, rfl, hchild⟩ := exists_of_expression_mem_slots hs
    obtain ⟨hlt, hnumber⟩ := lt_of_child hfirst hchild
    have hexprs := hsmall.exprs
    rw [size_exprs_layOut hvalid] at hexprs
    -- The number fits into its word, so it is what is read.
    rw [hstored, UInt64.toNat_ofNat_of_lt' (Nat.lt_trans hnumber hexprs)]
    exact hlt

end LayOut

end Tree

namespace Regions

/-- Where expressions refer to later ones only, a chain goes on by one at least with each
reference. -/
theorem Chain.add_le_of_descends {r : Regions}
    (h : ∀ index target, r.Refers index target → index < target) {n index target : Nat}
    (hchain : r.Chain n index target) : index + n ≤ target := by
  induction hchain with
  | nil => exact Nat.le_refl _
  | cons hrefers _ ih =>
    have hlt := h _ _ hrefers
    omega

end Regions

namespace Tree

/-- **A tree is numbered breadth first**: there is a record for every expression and a slot for
every child, next to the one of the root. Expressions have their slots one after another, the
references in the slots are the numbers of the expressions in order, and each text has an entry
of its own. So an expression refers to later ones only. -/
theorem numbered_layOut {policy : RunPolicy} (hvalid : policy.Valid) (head : String)
    (children : List Tree) :
    ((node head children).layOut policy).exprs.size = (node head children).expressions ∧
    ((node head children).layOut policy).args.size = 1 + sizes children ∧
    Numbered policy (breadthFirst [⟨head, children⟩]) ((node head children).layOut policy) ∧
    (((node head children).layOut policy).Small →
      ((node head children).layOut policy).regions.InOrder (breadthFirst [⟨head, children⟩])) := by
  refine ⟨?_, size_args_layOut hvalid, numbered_breadthFirst hvalid head children, fun hsmall => ?_⟩
  · rw [size_exprs_layOut hvalid, length_breadthFirst]
    exact Nat.add_zero _
  · have hdescends : ∀ index target,
        ((node head children).layOut policy).regions.Refers index target → index < target :=
      fun _ _ => lt_of_refers hvalid hsmall
    refine ⟨fun _ _ => children_layOut hvalid hsmall, hdescends, fun index n hchain => ?_⟩
    have hle := hchain.add_le_of_descends hdescends
    omega

/-- Children with the same text as a head, a string and a symbol, on several levels. -/
def echo : List Tree :=
  [.node "f" [], .scalar (.string "f"),
    .node "g" [.scalar (.symbol "f"), .node "f" []], .node "g" [.node "f" []]]

/-- The texts that repeat are stored again, and the runs change neither numbers nor slots. -/
theorem numbered_layOut_echo :
    Numbered ⟨some 2, true⟩ (breadthFirst [⟨"f", echo⟩])
        ((node "f" echo).layOut ⟨some 2, true⟩) ∧
      ((node "f" echo).layOut ⟨some 2, true⟩).regions.InOrder (breadthFirst [⟨"f", echo⟩]) ∧
      ((node "f" echo).layOut ⟨some 2, true⟩).args = #[0, 1, 2, 2, 3, 8, 4, 5] ∧
      ((node "f" echo).layOut ⟨some 2, true⟩).tags = #[5, 5, 3, 0x85, 2, 4, 5, 5] ∧
      ((node "f" echo).layOut ⟨some 2, true⟩).exprs =
        #[⟨0, 1, 5⟩, ⟨4, 5, 5⟩, ⟨6, 5, 7⟩, ⟨10, 7, 8⟩, ⟨12, 8, 8⟩, ⟨14, 8, 8⟩] := by
  have hvalid : RunPolicy.Valid ⟨some 2, true⟩ := fun minimum h => by
    cases h
    exact Nat.le_refl 2
  obtain ⟨-, -, hnumbered, hsmall⟩ := numbered_layOut hvalid "f" echo
  refine ⟨hnumbered, hsmall ⟨?_, ?_, ?_⟩, ?_, ?_, ?_⟩ <;> decide +kernel

end Tree

end FlatTree
