import FlatTree.Proofs.Build.BreadthFirst

/-!
# The texts of a laid out tree

Every head, string and symbol of a tree gets a heap entry of its own, also where an
equal text is there already. So the heap is the entries of all texts in the order
in which they are laid out, and where an entry starts is known from the texts
before it.

- `Heap.entries`: the entries of texts, one after another.
- `HeadedNode.texts`: the texts of an expression, the head first.
- `Layout.strings_foldl_addNode`: the heap is the entries of the texts.
- `Layout.getElem?_exprs_addNode`, `Layout.getElem?_args_addNode`: a record and the
  word of a text say where the heap ended before.
-/

namespace FlatTree

namespace Heap

/-- The entries of texts, one after another. -/
def entries : List String → ByteArray
  | [] => .empty
  | text :: rest => RawBuffer.textEntry text ++ entries rest

theorem entries_append (texts more : List String) :
    entries (texts ++ more) = entries texts ++ entries more := by
  induction texts with
  | nil => exact ByteArray.empty_append.symm
  | cons text rest ih => rw [List.cons_append, entries, entries, ih, ByteArray.append_assoc]

/-- The entry of a text starts where those of the texts before it end. -/
theorem holds_entries (earlier : List String) (text : String) (later : List String) :
    Holds (entries (earlier ++ text :: later)) (entries earlier).size text :=
  ⟨entries earlier, entries later, entries_append _ _, rfl⟩

end Heap

/-- The text of a string or a symbol. -/
def Tree.text? : Tree → Option String
  | scalar (.string text) => some text
  | scalar (.symbol name) => some name
  | _ => none

/-- The texts of an expression as they go to the heap: its head, and then those of its children. -/
def HeadedNode.texts (node : HeadedNode) : List String :=
  node.head :: node.children.filterMap Tree.text?

namespace Layout

variable {policy : RunPolicy}

/-- A child brings a word to the slots, and its text to the heap if it has one. -/
theorem addChild_grows (l : Layout) (child : Tree) :
    (∃ word, (l.addChild child).raw.args = l.raw.args.push word ∧
      ∀ text, child.text? = some text → word = l.raw.nextText) ∧
    (l.addChild child).raw.strings = l.raw.strings ++ Heap.entries child.text?.toList := by
  have hnone : l.raw.strings = l.raw.strings ++ Heap.entries [] := ByteArray.append_empty.symm
  have hone : ∀ text, l.raw.strings ++ RawBuffer.textEntry text =
      l.raw.strings ++ Heap.entries [text] :=
    fun text => congrArg (l.raw.strings ++ ·) ByteArray.append_empty.symm
  match child with
  | .node _ _ => exact ⟨⟨_, rfl, fun _ h => by cases h⟩, hnone⟩
  | .scalar (.bool _) => exact ⟨⟨_, rfl, fun _ h => by cases h⟩, hnone⟩
  | .scalar (.long _) => exact ⟨⟨_, rfl, fun _ h => by cases h⟩, hnone⟩
  | .scalar (.double _) => exact ⟨⟨_, rfl, fun _ h => by cases h⟩, hnone⟩
  | .scalar (.string text) => exact ⟨⟨_, rfl, fun _ _ => rfl⟩, hone text⟩
  | .scalar (.symbol name) => exact ⟨⟨_, rfl, fun _ _ => rfl⟩, hone name⟩

theorem strings_foldl_addChild (children : List Tree) :
    ∀ l : Layout, (children.foldl addChild l).raw.strings =
      l.raw.strings ++ Heap.entries (children.filterMap Tree.text?) := by
  induction children with
  | nil => exact fun l => ByteArray.append_empty.symm
  | cons child rest ih =>
    intro l
    rw [List.foldl_cons, ih, (l.addChild_grows child).2, ByteArray.append_assoc,
      ← Heap.entries_append]
    cases htext : child.text? <;> simp [htext]

/-- The word of a text is where the heap ended before it. -/
theorem getElem?_args_foldl_addChild {child : Tree} {text : String}
    (htext : child.text? = some text) :
    ∀ {children : List Tree} {l : Layout} {i : Nat}, children[i]? = some child →
      (children.foldl addChild l).raw.args[l.raw.args.size + i]? =
        some (l.raw.strings ++ Heap.entries ((children.take i).filterMap Tree.text?)).size.toUInt64
  | first :: rest, l, 0, hchild => by
    cases hchild
    obtain ⟨⟨word, hargs, hword⟩, -⟩ := l.addChild_grows child
    obtain ⟨words, _, hfold, -⟩ := foldl_addChild rest (l.addChild child)
    rw [List.foldl_cons, hfold]
    show ((l.addChild child).raw.args ++ words.toArray)[l.raw.args.size]? = _
    rw [hargs, hword text htext, Array.getElem?_append_left (by simp), Array.getElem?_push_size]
    simp [Heap.entries, RawBuffer.nextText]
  | first :: rest, l, i + 1, hchild => by
    obtain ⟨⟨word, hargs, -⟩, hstrings⟩ := l.addChild_grows first
    have hsize : (l.addChild first).raw.args.size = l.raw.args.size + 1 := by
      rw [hargs, Array.size_push]
    have ih := @getElem?_args_foldl_addChild _ _ htext rest (l.addChild first) i hchild
    rw [hsize, Nat.add_assoc, Nat.add_comm 1, hstrings, ByteArray.append_assoc,
      ← Heap.entries_append] at ih
    rw [List.foldl_cons, ih]
    cases hfirst : first.text? <;> simp [hfirst]

theorem strings_addNode (l : Layout) (node : HeadedNode) :
    (l.addNode policy node).raw.strings = l.raw.strings ++ Heap.entries node.texts := by
  show (node.children.foldl addChild { l with raw := l.raw.pushText node.head }).raw.strings = _
  rw [strings_foldl_addChild, HeadedNode.texts, Heap.entries, ← ByteArray.append_assoc]
  rfl

theorem strings_foldl_addNode (nodes : List HeadedNode) :
    ∀ l : Layout, (nodes.foldl (addNode policy) l).raw.strings =
      l.raw.strings ++ Heap.entries (nodes.flatMap HeadedNode.texts) := by
  induction nodes with
  | nil => exact fun l => ByteArray.append_empty.symm
  | cons node rest ih =>
    intro l
    rw [List.foldl_cons, ih, strings_addNode, ByteArray.append_assoc, ← Heap.entries_append,
      List.flatMap_cons]

/-- A record has the places where the heap and the slots ended before its expression, and where
the slots end after it. -/
theorem getElem?_exprs_addNode (l : Layout) (node : HeadedNode) :
    (l.addNode policy node).raw.exprs[l.raw.exprs.size]? =
      some ⟨l.raw.nextText, l.raw.args.size.toUInt64,
        (l.raw.args.size + node.children.length).toUInt64⟩ := by
  obtain ⟨words, more, hfold, hwords⟩ := foldl_addChild node.children
    { l with raw := l.raw.pushText node.head }
  have hlength : words.length = node.children.length := by
    rw [hwords.length_eq, Tree.length_slots]
  rw [addNode, hfold]
  simp [RawBuffer.pushText, hlength]

/-- The word of a text is where the heap ended before it: after the head of its expression, and
the texts of the children before. -/
theorem getElem?_args_addNode (l : Layout) {node : HeadedNode} {i : Nat} {child : Tree}
    {text : String} (hchild : node.children[i]? = some child) (htext : child.text? = some text) :
    (l.addNode policy node).raw.args[l.raw.args.size + i]? =
      some (l.raw.strings ++ Heap.entries
        (node.head :: (node.children.take i).filterMap Tree.text?)).size.toUInt64 := by
  have hword := getElem?_args_foldl_addChild htext hchild
    (l := { l with raw := l.raw.pushText node.head })
  rw [Heap.entries, ← ByteArray.append_assoc]
  exact hword

end Layout

end FlatTree
