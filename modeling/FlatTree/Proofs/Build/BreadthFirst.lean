import FlatTree.Build.Tree
import FlatTree.Proofs.Build.Stored
import FlatTree.Proofs.Decode.Unfolding

/-!
# Trees laid out breadth first

A tree is laid out expression by expression, in the order in which a queue hands
them out. When an expression is laid out, its children that are expressions get
the next numbers, long before they are laid out themselves. That these numbers
are right rests on one equation: the breadth-first order is the queue, followed
by the children of all that is in the order.

- `Tree.breadthFirst_eq`: that equation.
- `Layout.Adds`, `Layout.AddsAll`: what laying out one expression adds, and what is
  stored after all of them.
- `Tree.unfolds_layOut`: the buffer unfolds to the tree.
-/

namespace FlatTree

namespace Tree

/-! ## The order -/

/-- The queue comes first, and then the children of everything in the order. -/
theorem breadthFirst_eq (queue : List HeadedNode) :
    breadthFirst queue =
      queue ++ (breadthFirst queue).flatMap fun node => headedNodes node.children := by
  fun_induction breadthFirst queue with
  | case1 => rfl
  | case2 first queue ih =>
    -- The order of the rest of the queue has the children of the first at its end.
    conv_lhs => rw [ih]
    rw [List.flatMap_cons, List.cons_append, List.append_assoc]

/-- The expressions that are numbered before those in some expression. -/
def numberedBefore (nodes : List HeadedNode) (k : Nat) : Nat :=
  ((nodes.take k).flatMap fun node => headedNodes node.children).length

theorem getElem?_flatMap_of_getElem? {α β : Type} {f : α → List β} :
    ∀ {members : List α} {k m : Nat} {a : α} {b : β}, members[k]? = some a → (f a)[m]? = some b →
      (members.flatMap f)[((members.take k).flatMap f).length + m]? = some b
  | first :: rest, 0, m, a, b, ha, hb => by
    cases ha
    rw [List.take_zero, List.flatMap_nil, List.length_nil, Nat.zero_add, List.flatMap_cons,
      List.getElem?_append_left (List.getElem?_eq_some_iff.mp hb).1, hb]
  | first :: rest, k + 1, m, a, b, ha, hb => by
    rw [List.take_succ_cons, List.flatMap_cons, List.flatMap_cons, List.length_append,
      Nat.add_assoc, List.getElem?_append_right (Nat.le_add_right _ _), Nat.add_sub_cancel_left]
    exact getElem?_flatMap_of_getElem? ha hb

/-- The children of an expression stand in the order where their numbers say. -/
theorem getElem?_breadthFirst {root node child : HeadedNode} {k m : Nat}
    (hnode : (breadthFirst [root])[k]? = some node)
    (hchild : (headedNodes node.children)[m]? = some child) :
    (breadthFirst [root])[1 + numberedBefore (breadthFirst [root]) k + m]? = some child := by
  -- After the root come the children of all that is in the order.
  have hshift : ∀ j, (breadthFirst [root])[1 + j]? =
      ((breadthFirst [root]).flatMap fun node => headedNodes node.children)[j]? := by
    intro j
    conv_lhs => rw [breadthFirst_eq]
    rw [Nat.add_comm]
    rfl
  rw [Nat.add_assoc, hshift]
  exact getElem?_flatMap_of_getElem? hnode hchild

/-! ## What the slots of children hold -/

/-- What the slots of children hold, if the expressions among them are numbered
from `next` on. -/
def slots (next : Nat) : List Tree → List Slot
  | [] => []
  | scalar value :: rest => .scalar value :: slots next rest
  | node _ _ :: rest => .expression next :: slots (next + 1) rest

@[simp] theorem length_slots :
    ∀ (next : Nat) (children : List Tree), (slots next children).length = children.length
  | _, [] => rfl
  | next, scalar _ :: rest => congrArg (· + 1) (length_slots next rest)
  | next, node _ _ :: rest => congrArg (· + 1) (length_slots (next + 1) rest)

/-- The slots have the types of the children. -/
theorem map_code_slots :
    ∀ (next : Nat) (children : List Tree),
      ((slots next children).map fun s => s.type.code) = children.map fun child => child.type.code
  | _, [] => rfl
  | next, scalar _ :: rest => congrArg (_ :: ·) (map_code_slots next rest)
  | next, node _ _ :: rest => congrArg (_ :: ·) (map_code_slots (next + 1) rest)

theorem headedNodes_append (trees more : List Tree) :
    headedNodes (trees ++ more) = headedNodes trees ++ headedNodes more := by
  induction trees with
  | nil => rfl
  | cons tree rest ih =>
    cases tree with
    | scalar value => exact ih
    | node head children => exact congrArg (_ :: ·) ih

theorem slots_append (trees more : List Tree) :
    ∀ next, slots next (trees ++ more) =
      slots next trees ++ slots (next + (headedNodes trees).length) more := by
  induction trees with
  | nil => exact fun _ => rfl
  | cons tree rest ih =>
    intro next
    cases tree with
    | scalar value => exact congrArg (_ :: ·) (ih next)
    | node head children =>
      have hrest := ih (next + 1)
      rw [Nat.add_assoc, Nat.add_comm 1] at hrest
      exact congrArg (_ :: ·) hrest

end Tree

/-! ## A buffer that grows -/

/-- A buffer has all words and texts of another where they were, and more. -/
structure RawBuffer.Extends (raw more : RawBuffer) : Prop where
  args : ∃ added, more.args = raw.args ++ added
  tags : ∃ added, more.tags = raw.tags ++ added
  exprs : ∃ added, more.exprs = raw.exprs ++ added
  strings : ∃ added, more.strings = raw.strings ++ added

namespace RawBuffer.Extends

variable {raw more most : RawBuffer}

theorem refl (raw : RawBuffer) : raw.Extends raw where
  args := ⟨#[], Array.append_empty.symm⟩
  tags := ⟨#[], Array.append_empty.symm⟩
  exprs := ⟨#[], Array.append_empty.symm⟩
  strings := ⟨.empty, ByteArray.append_empty.symm⟩

theorem trans (h : raw.Extends more) (h' : more.Extends most) : raw.Extends most := by
  obtain ⟨⟨a, ha⟩, ⟨t, ht⟩, ⟨e, he⟩, ⟨s, hs⟩⟩ := h
  obtain ⟨⟨a', ha'⟩, ⟨t', ht'⟩, ⟨e', he'⟩, ⟨s', hs'⟩⟩ := h'
  exact ⟨⟨a ++ a', by rw [ha', ha, Array.append_assoc]⟩,
    ⟨t ++ t', by rw [ht', ht, Array.append_assoc]⟩,
    ⟨e ++ e', by rw [he', he, Array.append_assoc]⟩,
    ⟨s ++ s', by rw [hs', hs, ByteArray.append_assoc]⟩⟩

/-- What is in an array is in every longer one. -/
theorem getElem?_of_append {α : Type} {array longer : Array α} {i : Nat} {a : α}
    (h : ∃ added, longer = array ++ added) (ha : array[i]? = some a) : longer[i]? = some a := by
  obtain ⟨added, rfl⟩ := h
  rw [Array.getElem?_append_left (Array.getElem?_eq_some_iff.mp ha).1, ha]

/-- What is stored stays stored. -/
theorem stores {policy : RunPolicy} {index start : Nat} {head : String} {held : List Slot}
    (h : raw.Extends more) (hstores : raw.Stores policy index head start held) :
    more.Stores policy index head start held := by
  obtain ⟨⟨offset, hhead, hrecord⟩, hfits, hargs, htags⟩ := hstores
  obtain ⟨strings, hstrings⟩ := h.strings
  refine ⟨⟨offset, ?_, getElem?_of_append h.exprs hrecord⟩, ?_, ?_,
    htags.mono fun slot word _ _ hword => getElem?_of_append h.tags hword⟩
  · rw [hstrings]
    exact hhead.append strings
  · obtain ⟨added, hadded⟩ := h.args
    rw [hadded, Array.size_append]
    omega
  · refine hargs.mono ?_
    rintro slot s - - ⟨word, hword, hstored⟩
    refine ⟨word, getElem?_of_append h.args hword, ?_⟩
    rw [hstrings]
    exact hstored.append strings

end RawBuffer.Extends

namespace Layout

variable {policy : RunPolicy}

/-- Laying out children adds the words of their slots, and texts. -/
theorem foldl_addChild :
    ∀ (children : List Tree) (l : Layout), ∃ words more,
      children.foldl addChild l =
        { raw := { l.raw with
            args := l.raw.args ++ words.toArray
            strings := l.raw.strings ++ more }
          nextExpression := l.nextExpression + (Tree.headedNodes children).length } ∧
      List.Forall₂ (fun word s => Slot.StoredAs (l.raw.strings ++ more) word s) words
        (Tree.slots l.nextExpression children)
  | [], l => by
    refine ⟨[], .empty, ?_, .nil⟩
    rw [ByteArray.append_empty]
    simp [Tree.headedNodes]
  | .scalar value :: rest, l => by
    obtain ⟨more, word, hpush, hstored⟩ := l.raw.pushScalar_spec value
    obtain ⟨words, later, hfold, hwords⟩ := foldl_addChild rest
      ⟨{ l.raw with strings := l.raw.strings ++ more, args := l.raw.args.push word },
        l.nextExpression⟩
    refine ⟨word :: words, more ++ later, ?_, ?_⟩
    · rw [List.foldl_cons, addChild, hpush]
      show rest.foldl addChild ⟨{ l.raw with
        strings := l.raw.strings ++ more, args := l.raw.args.push word }, l.nextExpression⟩ = _
      rw [hfold]
      simp [Tree.headedNodes, ByteArray.append_assoc]
    · rw [← ByteArray.append_assoc]
      exact .cons (hstored.append later) hwords
  | .node head children :: rest, l => by
    obtain ⟨words, later, hfold, hwords⟩ := foldl_addChild rest
      ⟨{ l.raw with args := l.raw.args.push l.nextExpression.toUInt64 }, l.nextExpression + 1⟩
    refine ⟨l.nextExpression.toUInt64 :: words, later, ?_, .cons rfl hwords⟩
    rw [List.foldl_cons]
    show rest.foldl addChild ⟨{ l.raw with args := l.raw.args.push _ }, _⟩ = _
    rw [hfold]
    simp [Tree.headedNodes]
    omega

/-- What laying out an expression does: nothing that is there changes, the next
number goes to its first child that is an expression, and it is stored. -/
structure Adds (policy : RunPolicy) (node : HeadedNode) (l l' : Layout) : Prop where
  grows : l.raw.Extends l'.raw
  parallel : l'.raw.args.size = l'.raw.tags.size
  args : l'.raw.args.size = l.raw.args.size + node.children.length
  exprs : l'.raw.exprs.size = l.raw.exprs.size + 1
  next : l'.nextExpression = l.nextExpression + (Tree.headedNodes node.children).length
  stores : l'.raw.Stores policy l.raw.exprs.size node.head l.raw.args.size
    (Tree.slots l.nextExpression node.children)

/-- Words that stand for slots are found where they were added. -/
theorem standsAt_of_forall₂ {raw : RawBuffer} {args : Array UInt64} {words : List UInt64}
    {held : List Slot} (hargs : raw.args = args ++ words.toArray)
    (h : List.Forall₂ (fun word s => Slot.StoredAs raw.strings word s) words held) :
    StandsAt raw.SlotHolds args.size held := by
  intro i s hs
  obtain ⟨hi, rfl⟩ := List.getElem?_eq_some_iff.mp hs
  have hlength := h.length_eq
  refine ⟨words[i], ?_, (List.forall₂_iff_get.mp h).2 i (by omega) hi⟩
  rw [hargs, Array.getElem?_append_right (Nat.le_add_right _ _), Nat.add_sub_cancel_left]
  simp

theorem addNode_adds (hvalid : policy.Valid) (l : Layout) (node : HeadedNode)
    (hparallel : l.raw.args.size = l.raw.tags.size) :
    Adds policy node l (l.addNode policy node) := by
  obtain ⟨words, more, hfold, hwords⟩ := foldl_addChild node.children
    { l with raw := l.raw.pushText node.head }
  have hlength : words.length = node.children.length := by
    rw [hwords.length_eq, Tree.length_slots]
  have htags : (policy.compress (node.children.map fun child => child.type.code)).length =
      node.children.length := by
    rw [RunPolicy.length_compress hvalid, List.length_map]
  -- The children are laid out first, so the record can say where they end.
  have hlayout : l.addNode policy node =
      { raw := {
          args := l.raw.args ++ words.toArray
          tags := l.raw.tags ++
            (policy.compress (node.children.map fun child => child.type.code)).toArray
          exprs := l.raw.exprs.push ⟨l.raw.nextText, l.raw.args.size.toUInt64,
            (l.raw.args.size + node.children.length).toUInt64⟩
          strings := l.raw.strings ++ (RawBuffer.textEntry node.head ++ more) }
        nextExpression := l.nextExpression + (Tree.headedNodes node.children).length } := by
    rw [addNode, hfold]
    simp [RawBuffer.pushText, hlength, ByteArray.append_assoc]
  rw [hlayout]
  refine ⟨⟨⟨_, rfl⟩, ⟨_, rfl⟩, ⟨#[_], rfl⟩, ⟨_, rfl⟩⟩, ?_, ?_, ?_, rfl, ?_, ?_, ?_, ?_⟩
  · simp [hparallel, htags, hlength]
  · simp [hlength]
  · simp
  · refine ⟨l.raw.strings.size, ⟨l.raw.strings, more, rfl, rfl⟩, ?_⟩
    rw [Tree.length_slots]
    simp [RawBuffer.nextText]
  · rw [Tree.length_slots]
    simp [hlength]
  · refine standsAt_of_forall₂ rfl ?_
    rw [← ByteArray.append_assoc]
    exact hwords
  · intro i word hword
    rw [Tree.map_code_slots] at hword
    rw [RawBuffer.TagHolds, hparallel, Array.getElem?_append_right (Nat.le_add_right _ _),
      Nat.add_sub_cancel_left, List.getElem?_toArray, hword]

/-- What laying out expressions one after another does. -/
structure AddsAll (policy : RunPolicy) (nodes : List HeadedNode) (l l' : Layout) : Prop where
  grows : l.raw.Extends l'.raw
  parallel : l'.raw.args.size = l'.raw.tags.size
  args : l'.raw.args.size = l.raw.args.size + (nodes.map fun node => node.children.length).sum
  exprs : l'.raw.exprs.size = l.raw.exprs.size + nodes.length
  next : l'.nextExpression =
    l.nextExpression + (nodes.flatMap fun node => Tree.headedNodes node.children).length
  stores : ∀ k node, nodes[k]? = some node → ∃ start,
    l'.raw.Stores policy (l.raw.exprs.size + k) node.head start
      (Tree.slots (l.nextExpression + Tree.numberedBefore nodes k) node.children)

theorem foldl_addNode (hvalid : policy.Valid) :
    ∀ (nodes : List HeadedNode) (l : Layout), l.raw.args.size = l.raw.tags.size →
      AddsAll policy nodes l (nodes.foldl (addNode policy) l)
  | [], l, hparallel =>
    ⟨.refl l.raw, hparallel, rfl, rfl, rfl, fun _ _ h => by cases h⟩
  | first :: rest, l, hparallel => by
    have hfirst := addNode_adds hvalid l first hparallel
    have hrest := foldl_addNode hvalid rest (l.addNode policy first) hfirst.parallel
    refine ⟨hfirst.grows.trans hrest.grows, hrest.parallel, ?_, ?_, ?_,
      fun k node hnode => ?_⟩
    · rw [List.foldl_cons, hrest.args, hfirst.args, List.map_cons, List.sum_cons, Nat.add_assoc]
    · rw [List.foldl_cons, hrest.exprs, hfirst.exprs, List.length_cons, Nat.add_assoc,
        Nat.add_comm 1]
    · rw [List.foldl_cons, hrest.next, hfirst.next, List.flatMap_cons, List.length_append,
        Nat.add_assoc]
    · cases k with
      | zero =>
        cases hnode
        exact ⟨_, hrest.grows.stores hfirst.stores⟩
      | succ k =>
        obtain ⟨start, hstores⟩ := hrest.stores k node hnode
        -- The first expression has taken one number, and given some to its children.
        refine ⟨start, ?_⟩
        rw [hfirst.exprs, hfirst.next, Nat.add_assoc, Nat.add_comm 1, Nat.add_assoc] at hstores
        rw [Tree.numberedBefore, List.take_succ_cons, List.flatMap_cons, List.length_append]
        exact hstores

end Layout

namespace Tree

/-! ## The tree read back -/

/-- The heap can hold the head of an expression, and all below it. -/
def HeadedStorable (node : HeadedNode) : Prop :=
  Heap.Storable node.head ∧ AllStorable node.children

theorem headedStorable_of_mem {node : HeadedNode} :
    ∀ {children : List Tree}, AllStorable children → node ∈ headedNodes children →
      HeadedStorable node
  | scalar _ :: _, h, hmem => headedStorable_of_mem h.2 hmem
  | .node _ _ :: _, h, hmem => by
    rcases List.mem_cons.mp hmem with rfl | hmem
    · exact h.1
    · exact headedStorable_of_mem h.2 hmem

/-- Everything in the order is below something in the queue. -/
theorem headedStorable_breadthFirst {queue : List HeadedNode}
    (h : ∀ node ∈ queue, HeadedStorable node) :
    ∀ node ∈ breadthFirst queue, HeadedStorable node := by
  fun_induction breadthFirst queue with
  | case1 => exact h
  | case2 first queue ih =>
    obtain ⟨hfirst, hqueue⟩ := List.forall_mem_cons.mp h
    refine List.forall_mem_cons.mpr ⟨hfirst, ih fun node hmem => ?_⟩
    rcases List.mem_append.mp hmem with hmem | hmem
    · exact hqueue node hmem
    · exact headedStorable_of_mem hfirst.2 hmem

theorem storable_of_mem_slots {s : Slot} :
    ∀ {next : Nat} {children : List Tree}, AllStorable children → s ∈ slots next children →
      s.Storable
  | _, scalar _ :: _, h, hmem => by
    rcases List.mem_cons.mp hmem with rfl | hmem
    · exact h.1
    · exact storable_of_mem_slots h.2 hmem
  | _, node _ _ :: _, h, hmem => by
    rcases List.mem_cons.mp hmem with rfl | hmem
    · exact trivial
    · exact storable_of_mem_slots h.2 hmem

/-- What slots of children point at is a child of its own. -/
theorem exists_of_expression_mem_slots {index : Nat} :
    ∀ {next : Nat} {children : List Tree}, .expression index ∈ slots next children →
      ∃ m child, index = next + m ∧ (headedNodes children)[m]? = some child
  | _, scalar _ :: _, hmem => by
    rcases List.mem_cons.mp hmem with h | hmem
    · cases h
    · obtain ⟨m, child, heq, hchild⟩ := exists_of_expression_mem_slots hmem
      exact ⟨m, child, heq, hchild⟩
  | next, node head children :: _, hmem => by
    rcases List.mem_cons.mp hmem with h | hmem
    · cases h
      exact ⟨0, ⟨head, children⟩, rfl, rfl⟩
    · obtain ⟨m, child, rfl, hchild⟩ := exists_of_expression_mem_slots hmem
      exact ⟨m + 1, child, by omega, hchild⟩

mutual

/-- An expression of which all is stored where its number says unfolds to its
tree. -/
theorem unfolds_of_order {r : Regions} {nodes : List HeadedNode}
    (h : ∀ k node, nodes[k]? = some node → ∃ next, headOf r k = .ok node.head ∧
      r.childSlots k = .ok (slots next node.children) ∧
      ∀ m child, (headedNodes node.children)[m]? = some child → nodes[next + m]? = some child)
    (head : String) :
    ∀ (children : List Tree) (k : Nat), nodes[k]? = some ⟨head, children⟩ →
      Unfolds r k (node head children)
  | children, k, hk => by
    obtain ⟨next, hhead, hslots, hnext⟩ := h k _ hk
    exact .node hhead hslots (slotsUnfold_of_order h children next hnext)

theorem slotsUnfold_of_order {r : Regions} {nodes : List HeadedNode}
    (h : ∀ k node, nodes[k]? = some node → ∃ next, headOf r k = .ok node.head ∧
      r.childSlots k = .ok (slots next node.children) ∧
      ∀ m child, (headedNodes node.children)[m]? = some child → nodes[next + m]? = some child) :
    ∀ (children : List Tree) (next : Nat),
      (∀ m child, (headedNodes children)[m]? = some child → nodes[next + m]? = some child) →
        SlotsUnfold r (slots next children) children
  | [], _, _ => .nil
  | scalar _ :: rest, next, hnext => .scalar (slotsUnfold_of_order h rest next hnext)
  | node head children :: rest, next, hnext => by
    refine .expression (unfolds_of_order h head children next (hnext 0 _ rfl)) ?_
    refine slotsUnfold_of_order h rest (next + 1) fun m child hchild => ?_
    rw [Nat.add_assoc, Nat.add_comm 1]
    exact hnext (m + 1) child hchild

end

/-! ## Counting slots and expressions -/

theorem pendingSize_headedNodes (trees : List Tree) :
    pendingSize (headedNodes trees) + trees.length = sizes trees + (headedNodes trees).length := by
  induction trees with
  | nil => rfl
  | cons tree rest ih =>
    cases tree with
    | scalar value =>
      simp only [headedNodes, sizes, size, List.length_cons]
      omega
    | node head children =>
      simp only [headedNodes, pendingSize, sizes, size, List.length_cons]
      omega

/-- Everything in and below a queue is in the queue, or a child of something in
the order. -/
theorem sum_breadthFirst (queue : List HeadedNode) :
    ((breadthFirst queue).map fun node => node.children.length).sum + queue.length =
      pendingSize queue := by
  fun_induction breadthFirst queue with
  | case1 => rfl
  | case2 first queue ih =>
    have hchildren := pendingSize_headedNodes first.children
    rw [pendingSize_append, List.length_append] at ih
    rw [List.map_cons, List.sum_cons, List.length_cons, pendingSize]
    omega

theorem length_headedNodes_le (trees : List Tree) :
    (headedNodes trees).length ≤ trees.length := by
  have hsize := pendingSize_headedNodes trees
  have hle := pendingSize_headedNodes_le trees
  omega

theorem length_flatMap_headedNodes_le (nodes : List HeadedNode) :
    (nodes.flatMap fun node => headedNodes node.children).length ≤
      (nodes.map fun node => node.children.length).sum := by
  induction nodes with
  | nil => exact Nat.le_refl _
  | cons first rest ih =>
    have hfirst := length_headedNodes_le first.children
    rw [List.flatMap_cons, List.length_append, List.map_cons, List.sum_cons]
    omega

theorem levelsAll_append (trees more : List Tree) :
    levelsAll (trees ++ more) = max (levelsAll trees) (levelsAll more) := by
  induction trees with
  | nil => exact (Nat.zero_max _).symm
  | cons tree rest ih => rw [List.cons_append, levelsAll_cons, levelsAll_cons, ih, Nat.max_assoc]

/-- Only the expressions among trees have levels. -/
theorem levelsAll_headedNodes (trees : List Tree) :
    levelsAll ((headedNodes trees).map fun first => node first.head first.children) =
      levelsAll trees := by
  induction trees with
  | nil => rfl
  | cons tree rest ih =>
    cases tree with
    | scalar value => rw [headedNodes, ih, levelsAll_cons, levels_scalar, Nat.zero_max]
    | node head children => rw [headedNodes, List.map_cons, levelsAll_cons, ih, levelsAll_cons]

/-- A tree nests at most as deep as it has expressions. -/
theorem levelsAll_le_length_breadthFirst (queue : List HeadedNode) :
    levelsAll (queue.map fun first => node first.head first.children) ≤
      (breadthFirst queue).length := by
  fun_induction breadthFirst queue with
  | case1 => exact Nat.le_refl _
  | case2 first queue ih =>
    -- A level is taken off the queue, and one expression with it.
    rw [List.map_append, levelsAll_append, levelsAll_headedNodes] at ih
    rw [List.map_cons, levelsAll_cons, levels_node, List.length_cons]
    omega

section LayOut

variable {policy : RunPolicy} {head : String} {children : List Tree}

theorem layOut_addsAll (hvalid : policy.Valid) (head : String) (children : List Tree) :
    Layout.AddsAll policy (breadthFirst [⟨head, children⟩]) Layout.initial
      ((breadthFirst [⟨head, children⟩]).foldl (Layout.addNode policy) Layout.initial) :=
  Layout.foldl_addNode hvalid _ _ rfl

/-- The slots of a buffer are the nodes of its tree. -/
theorem size_args_layOut (hvalid : policy.Valid) :
    ((node head children).layOut policy).args.size = (node head children).size := by
  have hargs := (layOut_addsAll hvalid head children).args
  have hsum := sum_breadthFirst [⟨head, children⟩]
  have hpending : pendingSize [⟨head, children⟩] = 1 + sizes children := rfl
  rw [show Layout.initial.raw.args.size = 1 from rfl] at hargs
  rw [List.length_singleton] at hsum
  rw [layOut, headedNodes, headedNodes, hargs, size]
  omega

theorem size_exprs_layOut (hvalid : policy.Valid) :
    ((node head children).layOut policy).exprs.size = (breadthFirst [⟨head, children⟩]).length := by
  have hexprs := (layOut_addsAll hvalid head children).exprs
  rw [show Layout.initial.raw.exprs.size = 0 from rfl, Nat.zero_add] at hexprs
  exact hexprs

/-- All expressions but the root stand in slots, and slot 0 refers to the root. -/
theorem size_exprs_layOut_le (hvalid : policy.Valid) :
    ((node head children).layOut policy).exprs.size ≤
      ((node head children).layOut policy).args.size := by
  have hcount := (layOut_addsAll hvalid head children).args
  have hle := length_flatMap_headedNodes_le (breadthFirst [⟨head, children⟩])
  have horder := congrArg List.length (breadthFirst_eq [⟨head, children⟩])
  rw [List.length_append, List.length_singleton] at horder
  rw [show Layout.initial.raw.args.size = 1 from rfl] at hcount
  rw [size_exprs_layOut hvalid, layOut, headedNodes, headedNodes]
  omega

/-- A buffer of a tree is small if its slots and the bytes of its heap can be
counted. -/
theorem small_layOut (hvalid : policy.Valid) (hslots : (node head children).size < 2 ^ 32)
    (hheap : ((node head children).layOut policy).strings.size < 2 ^ 64) :
    ((node head children).layOut policy).Small := by
  have hargs := @size_args_layOut policy head children hvalid
  have hexprs := @size_exprs_layOut_le policy head children hvalid
  exact ⟨by omega, by omega, hheap⟩

/-- **The buffer of a tree unfolds to the tree**, if the heap can hold its texts
and its slots and offsets can be counted. -/
theorem unfolds_layOut (hvalid : policy.Valid) (hstorable : (node head children).Storable)
    (hslots : (node head children).size < 2 ^ 32)
    (hheap : ((node head children).layOut policy).strings.size < 2 ^ 64) :
    Unfolds ((node head children).layOut policy).regions 0 (node head children) := by
  have hall := layOut_addsAll hvalid head children
  have hsmall := small_layOut hvalid hslots hheap
  have hargs : ((node head children).layOut policy).args.size < 2 ^ 32 :=
    (size_args_layOut hvalid).symm ▸ hslots
  have hroot : (breadthFirst [⟨head, children⟩])[0]? = some ⟨head, children⟩ := by
    rw [breadthFirst_eq]
    rfl
  have hstored := @headedStorable_breadthFirst [⟨head, children⟩]
    (List.forall_mem_singleton.mpr hstorable)
  refine unfolds_of_order (fun k first hfirst => ?_) head children 0 hroot
  obtain ⟨start, hstores⟩ := hall.stores k first hfirst
  obtain ⟨hhead, hbelow⟩ := hstored first (List.mem_of_getElem? hfirst)
  rw [show Layout.initial.raw.exprs.size = 0 from rfl, Nat.zero_add] at hstores
  refine ⟨_, hstores.headOf hsmall hhead,
    hstores.childSlots hsmall hvalid (hstores.legible hvalid hargs)
      (fun s hs => storable_of_mem_slots hbelow hs) ?_,
    fun m child hchild => getElem?_breadthFirst hfirst hchild⟩
  -- A child has its place in the order, and so it is an expression of the buffer.
  intro index hmem
  obtain ⟨m, child, rfl, hchild⟩ := exists_of_expression_mem_slots hmem
  have hplace := getElem?_breadthFirst hfirst hchild
  have hexprs := @size_exprs_layOut policy head children hvalid
  rw [layOut, headedNodes, headedNodes] at hexprs
  rw [hexprs]
  exact (List.getElem?_eq_some_iff.mp hplace).1

end LayOut

end Tree

end FlatTree
