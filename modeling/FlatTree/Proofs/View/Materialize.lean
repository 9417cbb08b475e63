import FlatTree.View.Materialize
import FlatTree.Proofs.View.Traversal
import FlatTree.Proofs.Decode.Eager

/-!
# Both ways of decoding agree

A view is materialized by a loop over an explicit stack, which opens every
expression as soon as a cursor meets it. The eager decoder calls itself, and
looks at all children of an object or a table before it decodes one of them.
They fail in different places and in a different order, and yet succeed on the
same expressions with the same values.

- `Frame.drain`, `Frame.finish`: the loop as a recursion over what is left of
  the open expression. `Stack.run_eq` says that the loop computes that.
- `Finishes`: the recursion succeeds exactly where the eager decoder does. The
  induction is on the levels left, as it is there.
- `View.materialize_eq`: a view is materialized by that recursion, so that the two
  agree.
-/

namespace FlatTree

/-! ## The loop as a recursion -/

namespace Frame

/-- What becomes of an open expression when its next child is consumed, with
`finish` for what becomes of an expression among its children. -/
def consume (finish : Nat → Bool → Decoded Partial) (f : Frame) : Decoded Slot → Decoded Partial
  | .error e => .error (e.blame f.index)
  | .ok (.scalar value) => do
    let f ← Decoded.blaming f.index (f.pushScalar value)
    return f.node
  | .ok (.expression child) => do
    let node ← finish child f.node.takesEntries
    let f ← Decoded.blaming f.index (f.accept { f with index := child, node })
    return f.node

/-- What becomes of an open expression when all these children are consumed. -/
def drain (finish : Nat → Bool → Decoded Partial) (f : Frame) :
    List (Decoded Slot) → Decoded Partial
  | [] => return f.node
  | item :: rest => do
    let node ← consume finish f item
    drain finish { f with node } rest

/-- What becomes of an expression, with so many levels left. -/
def finish (r : Regions) : Nat → Nat → Bool → Decoded Partial
  | 0, index, _ => .error ⟨.depthLimitExceeded defaultMaxDepth, some index⟩
  | levels + 1, index, isEntry => do
    let f ← start r index (defaultMaxDepth - levels) isEntry
    drain (finish r levels) f (f.cursor.toList r)

variable {r : Regions}

/-- What opening an expression takes, and what it leads to. -/
theorem start_eq_ok_iff {index depth : Nat} {isEntry : Bool} {f : Frame} :
    start r index depth isEntry = .ok f ↔
      depth ≤ defaultMaxDepth ∧ ∃ head, headOf r index = .ok head ∧
        f = ⟨index, depth, Cursor.start r index none,
          if isEntry then .entry head #[] else .ofHead head⟩ := by
  rw [start, Decoded.blaming_eq_ok]
  by_cases hdepth : defaultMaxDepth < depth
  · rw [if_pos hdepth]
    refine iff_of_false (fun h => ?_) ?_
    · cases h
    · rintro ⟨h, -⟩
      exact absurd hdepth (Nat.not_lt.mpr h)
  · rw [if_neg hdepth]
    show (Decoded.blaming index (headOf r index) >>= fun head => pure _) = .ok f ↔ _
    rw [bind_pure_eq_ok]
    simp only [Decoded.blaming_eq_ok]
    exact (and_iff_right (Nat.le_of_not_lt hdepth)).symm

theorem start_of_lt {index depth : Nat} {isEntry : Bool} (h : defaultMaxDepth < depth) :
    start r index depth isEntry = .error ⟨.depthLimitExceeded defaultMaxDepth, some index⟩ := by
  rw [start, if_pos h]
  rfl

/-- Only the node of an open expression changes when a scalar is added. -/
theorem eq_of_pushScalar {f f' : Frame} {value : Scalar} (h : f.pushScalar value = .ok f') :
    f' = { f with node := f'.node } := by
  rw [pushScalar] at h
  split at h <;> cases h <;> rfl

/-- Only the node of an open expression changes when a child is folded in. -/
theorem eq_of_accept {f f' child : Frame} (h : f.accept child = .ok f') :
    f' = { f with node := f'.node } := by
  rw [accept.eq_def] at h
  split at h
  · cases h; rfl
  · cases h; rfl
  · cases h; rfl
  · split at h
    · cases h; rfl
    · cases h
  · cases h; rfl
  · cases h
  · cases h

/-- Of a finished child only the number and the node are folded in. -/
theorem accept_congr {f child child' : Frame} (hindex : child.index = child'.index)
    (hnode : child.node = child'.node) : f.accept child = f.accept child' := by
  rw [accept.eq_def, accept.eq_def, hindex, hnode]

/-- What consuming a child leads to does not depend on the cursor. -/
theorem consume_cursor {finish : Nat → Bool → Decoded Partial} (f : Frame) (cursor : Cursor)
    (item : Decoded Slot) : consume finish { f with cursor } item = consume finish f item := by
  obtain ⟨index, depth, _, node⟩ := f
  match item with
  | .error e => rfl
  | .ok (.scalar value) => cases node <;> rfl
  | .ok (.expression child) =>
    -- Opening the child does not look at the frame, so only folding it in is left.
    rw [consume, consume]
    congr 1
    funext inner
    cases node with
    | list items => rfl
    | generic head arguments => rfl
    | entry head arguments => rfl
    | object entries =>
      cases inner with
      | entry key arguments =>
        simp only [accept]
        cases objectEntry child arguments.toList <;> rfl
      | _ => rfl
    | table columns => cases inner <;> rfl

theorem drain_cursor {finish : Nat → Bool → Decoded Partial} (cursor : Cursor) :
    ∀ (f : Frame) (items : List (Decoded Slot)),
      drain finish { f with cursor } items = drain finish f items
  | f, [] => rfl
  | f, item :: rest => by
    rw [drain, drain, consume_cursor]
    congr 1
    funext node
    exact drain_cursor cursor { f with node } rest

/-- An expression among the children is opened a level further up, unless no
level is left. -/
theorem finish_eq {depth index : Nat} {isEntry : Bool} :
    finish r (defaultMaxDepth - depth) index isEntry =
      start r index (depth + 1) isEntry >>= fun f =>
        drain (finish r (defaultMaxDepth - f.depth)) f (f.cursor.toList r) := by
  by_cases hdepth : defaultMaxDepth < depth + 1
  · -- At the limit both sides blame the child, before its head is read.
    rw [show defaultMaxDepth - depth = 0 by omega, start_of_lt hdepth]
    rfl
  · rw [show defaultMaxDepth - depth = defaultMaxDepth - (depth + 1) + 1 by omega, finish,
      show defaultMaxDepth - (defaultMaxDepth - (depth + 1)) = depth + 1 by omega]
    cases hstart : start r index (depth + 1) isEntry with
    | error e => rfl
    | ok f =>
      obtain ⟨-, head, -, rfl⟩ := start_eq_ok_iff.mp hstart
      rfl

end Frame

namespace Stack

variable {r : Regions}

/-- What becomes of the expressions below when the one on top is finished. -/
def resume (r : Regions) : List Frame → Frame → Decoded Value
  | [], f => .ok f.node.toValue
  | parent :: rest, f => do
    let parent ← Decoded.blaming parent.index (parent.accept f)
    run r ⟨parent, rest⟩

theorem run_eq_step (s : Stack) :
    run r s = match s.step r with
      | .finished outcome => outcome
      | .running s' => run r s' := by
  rw [run]
  split
  · next heq => rw [heq]
  · next heq => rw [heq]

theorem run_of_none {top : Frame} {below : List Frame} (h : top.cursor.next r = none) :
    run r ⟨top, below⟩ = resume r below top := by
  cases below with
  | nil =>
    -- The root is not folded into anything; its node is the outcome.
    rw [run_eq_step, step]
    simp only [h]
    rfl
  | cons parent rest =>
    rw [run_eq_step, step, resume]
    simp only [h]
    cases parent.accept top <;> rfl

theorem run_of_error {top : Frame} {below : List Frame} {e : DecodeError} {cursor : Cursor}
    (h : top.cursor.next r = some (.error e, cursor)) :
    run r ⟨top, below⟩ = .error (e.blame top.index) := by
  rw [run_eq_step, step]
  simp only [h]

theorem run_of_scalar {top : Frame} {below : List Frame} {value : Scalar} {cursor : Cursor}
    (h : top.cursor.next r = some (.ok (.scalar value), cursor)) :
    run r ⟨top, below⟩ =
      Decoded.blaming top.index (Frame.pushScalar { top with cursor } value) >>= fun top =>
        run r ⟨top, below⟩ := by
  rw [run_eq_step, step]
  simp only [h]
  cases Frame.pushScalar { top with cursor } value <;> rfl

theorem run_of_expression {top : Frame} {below : List Frame} {child : Nat} {cursor : Cursor}
    (h : top.cursor.next r = some (.ok (.expression child), cursor)) :
    run r ⟨top, below⟩ =
      Frame.start r child (top.depth + 1) top.node.takesEntries >>= fun f =>
        run r ⟨f, { top with cursor } :: below⟩ := by
  rw [run_eq_step, step]
  simp only [h]
  cases Frame.start r child (top.depth + 1) top.node.takesEntries <;> rfl

/-- Less is left to do when the top expression has gone on. -/
theorem weight_lt_of_next {top : Frame} {item : Decoded Slot} {cursor : Cursor}
    (h : top.cursor.next r = some (item, cursor)) (node : Partial) (below : List Frame) :
    weight r ⟨{ top with cursor, node }, below⟩ < weight r ⟨top, below⟩ := by
  refine Nat.add_lt_add_right ?_ _
  exact Nat.mul_lt_mul_of_pos_right
    (Nat.succ_lt_succ (Cursor.remaining_lt_of_next r h)) (slotWeight_pos r top.depth)

theorem resume_congr {f f' : Frame} (hindex : f.index = f'.index) (hnode : f.node = f'.node) :
    ∀ below : List Frame, resume r below f = resume r below f'
  | [] => by rw [resume, resume, hnode]
  | parent :: rest => by rw [resume, resume, Frame.accept_congr hindex hnode]

/-- A child that is finished is folded into the expression that it was found in, and
that goes on. Of the child only the number and the node matter. -/
theorem resume_cons {top : Frame} {below : List Frame} {index depth : Nat} {cursor : Cursor}
    {node : Partial} {next : Partial → Decoded Value}
    (hrest : ∀ node, run r ⟨{ top with node }, below⟩ = next node) :
    resume r (top :: below) ⟨index, depth, cursor, node⟩ =
      Decoded.blaming top.index (top.accept { top with index, node }) >>= fun f =>
        next f.node := by
  have hchild := @Frame.accept_congr top ⟨index, depth, cursor, node⟩ { top with index, node }
    rfl rfl
  rw [resume, hchild]
  cases haccept : top.accept { top with index, node } with
  | error e => rfl
  | ok top' =>
    rw [Frame.eq_of_accept haccept]
    exact hrest top'.node

/-- **The loop is the recursion**: what is on top is drained, and then the
expressions below go on. -/
theorem run_eq (r : Regions) (top : Frame) (below : List Frame) :
    run r ⟨top, below⟩ =
      top.drain (Frame.finish r (defaultMaxDepth - top.depth)) (top.cursor.toList r) >>=
        fun node => resume r below { top with node } := by
  cases hnext : top.cursor.next r with
  | none =>
    rw [run_of_none hnext, Cursor.toList_of_none hnext]
    rfl
  | some found =>
    obtain ⟨item, cursor⟩ := found
    -- With the child consumed, the loop stands where the recursion goes on.
    have hrest : ∀ node, run r ⟨{ top with cursor, node }, below⟩ =
        Frame.drain (Frame.finish r (defaultMaxDepth - top.depth)) { top with node }
          (cursor.toList r) >>= fun node => resume r below { top with node } := by
      intro node
      have hless := weight_lt_of_next hnext node below
      rw [run_eq, ← Frame.drain_cursor cursor { top with node }]
      refine congrArg _ (funext fun node' => ?_)
      exact @resume_congr r { top with cursor, node := node' } { top with node := node' } rfl rfl
        below
    rw [Cursor.toList_of_some hnext, Frame.drain, bind_assoc, ← Frame.consume_cursor top cursor]
    match item with
    | .error e =>
      rw [run_of_error hnext]
      rfl
    | .ok (.scalar value) =>
      rw [run_of_scalar hnext, Frame.consume, bind_assoc]
      cases hpush : Frame.pushScalar { top with cursor } value with
      | error e => rfl
      | ok top' =>
        rw [Frame.eq_of_pushScalar hpush]
        exact hrest top'.node
    | .ok (.expression child) =>
      -- The child goes on top of the stack, and this same theorem says how it is
      -- drained and folded into the expression that it was found in.
      rw [run_of_expression hnext, Frame.consume, Frame.finish_eq, bind_assoc, bind_assoc]
      cases hstart : Frame.start r child (top.depth + 1) top.node.takesEntries with
      | error e => rfl
      | ok f =>
        have hless : weight r ⟨f, { top with cursor } :: below⟩ < weight r ⟨top, below⟩ :=
          weight_lt_of_step r (by simp only [step, hnext, hstart])
        rw [ok_bind, ok_bind, run_eq r f]
        cases Frame.drain (Frame.finish r (defaultMaxDepth - f.depth)) f (f.cursor.toList r) with
        | error e => rfl
        | ok node =>
          obtain ⟨-, head, -, rfl⟩ := Frame.start_eq_ok_iff.mp hstart
          rw [ok_bind, ok_bind, resume_cons hrest, bind_assoc]
          rfl
termination_by weight r ⟨top, below⟩

end Stack

/-! ## Where the recursion succeeds -/

namespace Partial

/-- What an expression whose children are arguments becomes with one more. -/
def push (node : Partial) (value : Value) : Partial :=
  match node with
  | list items => list (items.push value)
  | generic head arguments => generic head (arguments.push value)
  | entry head arguments => entry head (arguments.push value)
  | object entries => object entries
  | table columns => table columns

theorem takesEntries_push (node : Partial) (value : Value) :
    (node.push value).takesEntries = node.takesEntries := by
  cases node <;> rfl

/-- Arguments are added in order, whatever it is that they are added to. -/
theorem foldl_push {wrap : Array Value → Partial}
    (hpush : ∀ (arguments : Array Value) (value : Value),
      (wrap arguments).push value = wrap (arguments.push value))
    (values : List Value) :
    ∀ arguments : Array Value,
      values.foldl push (wrap arguments) = wrap (arguments ++ values.toArray) := by
  induction values with
  | nil =>
    intro arguments
    simp
  | cons value rest ih =>
    intro arguments
    rw [List.foldl_cons, hpush, ih]
    simp

end Partial

namespace Frame

variable {r : Regions}

section Drain

variable {finish : Nat → Bool → Decoded Partial} {f : Frame} {node : Partial}

theorem drain_cons_eq_ok {item : Decoded Slot} {rest : List (Decoded Slot)} :
    drain finish f (item :: rest) = .ok node ↔
      ∃ next, consume finish f item = .ok next ∧
        drain finish { f with node := next } rest = .ok node :=
  bind_eq_ok

/-- Nothing is finished whose children end in an error. -/
theorem exists_held_of_drain :
    ∀ {f : Frame} {items : List (Decoded Slot)}, drain finish f items = .ok node →
      ∃ held : List Slot, items = held.map .ok
  | _, [], _ => ⟨[], rfl⟩
  | f, item :: rest, h => by
    obtain ⟨next, hnext, h⟩ := drain_cons_eq_ok.mp h
    obtain ⟨held, rfl⟩ := exists_held_of_drain h
    cases item with
    | error e => cases hnext
    | ok s => exact ⟨s :: held, rfl⟩

/-- Whatever is finished, the expressions among its children were. -/
theorem exists_finish_of_drain {child : Nat} :
    ∀ {f : Frame} {held : List Slot}, drain finish f (held.map .ok) = .ok node →
      .expression child ∈ held → ∃ isEntry inner, finish child isEntry = .ok inner
  | f, s :: held, h, hmem => by
    obtain ⟨next, hnext, h⟩ := drain_cons_eq_ok.mp h
    rcases List.mem_cons.mp hmem with rfl | hmem
    · obtain ⟨inner, hinner, -⟩ := bind_eq_ok.mp hnext
      exact ⟨_, inner, hinner⟩
    · exact exists_finish_of_drain h hmem

theorem consume_eq_ok_of_arguments (h : f.node.takesEntries = false) {s : Slot} :
    consume finish f (.ok s) = .ok node ↔
      ∃ value, s.value (fun child => do return (← finish child false).toValue) = .ok value ∧
        node = f.node.push value := by
  obtain ⟨index, depth, cursor, start⟩ := f
  cases s with
  | scalar value =>
    have hconsume : consume finish ⟨index, depth, cursor, start⟩ (.ok (.scalar value)) =
        .ok (start.push (.scalar value)) := by
      cases start with
      | object => cases h
      | table => cases h
      | _ => rfl
    rw [hconsume]
    constructor
    · intro heq
      cases heq
      exact ⟨_, rfl, rfl⟩
    · rintro ⟨_, heq, rfl⟩
      cases heq
      rfl
  | expression child =>
    have hconsume : consume finish ⟨index, depth, cursor, start⟩ (.ok (.expression child)) =
        finish child false >>= fun inner => pure (start.push inner.toValue) := by
      cases start with
      | object => cases h
      | table => cases h
      | _ => rfl
    rw [hconsume, bind_pure_eq_ok]
    show _ ↔ ∃ value, (finish child false >>= fun inner => pure inner.toValue) = .ok value ∧ _
    constructor
    · rintro ⟨inner, hinner, rfl⟩
      exact ⟨_, bind_pure_eq_ok.mpr ⟨inner, hinner, rfl⟩, rfl⟩
    · rintro ⟨_, hvalue, rfl⟩
      obtain ⟨inner, hinner, rfl⟩ := bind_pure_eq_ok.mp hvalue
      exact ⟨inner, hinner, rfl⟩

/-- An expression whose children are arguments takes all their values. -/
theorem drain_eq_ok_of_arguments :
    ∀ {f : Frame} {held : List Slot} {node : Partial}, f.node.takesEntries = false →
      (drain finish f (held.map .ok) = .ok node ↔
        ∃ values, held.mapM (Slot.value fun child => do return (← finish child false).toValue) =
            .ok values ∧ node = values.foldl Partial.push f.node)
  | f, [], node, _ => by
    show pure f.node = Except.ok node ↔ _
    rw [pure_eq_ok, List.mapM_nil]
    constructor
    · rintro rfl
      exact ⟨[], rfl, rfl⟩
    · rintro ⟨values, hvalues, rfl⟩
      cases pure_eq_ok.mp hvalues
      rfl
  | f, s :: held, node, hnode => by
    rw [List.map_cons, drain_cons_eq_ok, List.mapM_cons]
    constructor
    · rintro ⟨next, hnext, h⟩
      obtain ⟨value, hvalue, rfl⟩ := (consume_eq_ok_of_arguments hnode).mp hnext
      rw [drain_eq_ok_of_arguments ((Partial.takesEntries_push _ _).trans hnode)] at h
      obtain ⟨values, hvalues, rfl⟩ := h
      exact ⟨value :: values, bind_eq_ok.mpr ⟨value, hvalue, bind_eq_ok.mpr ⟨_, hvalues, rfl⟩⟩, rfl⟩
    · rintro ⟨all, hall, rfl⟩
      obtain ⟨value, hvalue, hall⟩ := bind_eq_ok.mp hall
      obtain ⟨values, hvalues, hall⟩ := bind_eq_ok.mp hall
      cases pure_eq_ok.mp hall
      refine ⟨_, (consume_eq_ok_of_arguments hnode).mpr ⟨value, hvalue, rfl⟩, ?_⟩
      rw [drain_eq_ok_of_arguments ((Partial.takesEntries_push _ _).trans hnode)]
      exact ⟨values, hvalues, rfl⟩

/-- A scalar is no entry of an object or a table. -/
theorem consume_scalar_of_entries (h : f.node.takesEntries = true) {value : Scalar} :
    consume finish f (.ok (.scalar value)) ≠ .ok node := by
  obtain ⟨index, depth, cursor, start⟩ := f
  intro hconsume
  cases start with
  | object entries => cases hconsume
  | table columns => cases hconsume
  | list items => cases h
  | generic head arguments => cases h
  | entry head arguments => cases h

/-- An expression whose children are entries takes them one by one, and none of
them may be a scalar. -/
theorem drain_eq_ok_of_entries {wrap : Entries Value → Partial}
    {entry : Nat → Decoded (String × Value)}
    (hwrap : ∀ map, (wrap map).takesEntries = true)
    (hentry : ∀ {map : Entries Value} {child : Nat} {next : Partial},
      consume finish { f with node := wrap map } (.ok (.expression child)) = .ok next ↔
        ∃ found, entry child = .ok found ∧
          next = wrap (Entries.insertFirst found.1 found.2 map)) :
    ∀ {map : Entries Value} {held : List Slot} {node : Partial},
      drain finish { f with node := wrap map } (held.map .ok) = .ok node ↔
        ∃ indices : List Nat, held = indices.map .expression ∧
          ∃ result, Eager.collect entry indices map = .ok result ∧ node = wrap result
  | map, [], node => by
    show pure (wrap map) = Except.ok node ↔ _
    rw [pure_eq_ok]
    constructor
    · rintro rfl
      exact ⟨[], rfl, map, rfl, rfl⟩
    · rintro ⟨indices, hheld, result, hresult, rfl⟩
      cases indices with
      | nil =>
        cases hresult
        rfl
      | cons _ _ => cases hheld
  | map, s :: held, node => by
    have ih : ∀ {map : Entries Value} {node : Partial}, _ ↔ _ :=
      fun {map node} => @drain_eq_ok_of_entries wrap entry hwrap hentry map held node
    rw [List.map_cons, drain_cons_eq_ok]
    constructor
    · rintro ⟨next, hnext, h⟩
      cases s with
      | scalar value => exact absurd hnext (consume_scalar_of_entries (hwrap map))
      | expression child =>
        obtain ⟨found, hfound, rfl⟩ := hentry.mp hnext
        obtain ⟨indices, rfl, result, hresult, rfl⟩ := ih.mp h
        exact ⟨child :: indices, rfl, result, bind_eq_ok.mpr ⟨found, hfound, hresult⟩, rfl⟩
    · rintro ⟨indices, hheld, result, hresult, rfl⟩
      cases indices with
      | nil => cases hheld
      | cons child indices =>
        obtain ⟨rfl, rfl⟩ := List.cons.inj hheld
        obtain ⟨found, hfound, hresult⟩ := bind_eq_ok.mp hresult
        exact ⟨_, hentry.mpr ⟨found, hfound, rfl⟩, ih.mpr ⟨indices, rfl, result, hresult, rfl⟩⟩

end Drain

/-- Only an expression that exists can be finished. -/
theorem exists_record_of_finish {levels index : Nat} {isEntry : Bool} {node : Partial}
    (h : finish r levels index isEntry = .ok node) :
    ∃ record, r.expression index = .ok record := by
  cases levels with
  | zero => cases h
  | succ levels =>
    obtain ⟨f, hstart, -⟩ := bind_eq_ok.mp h
    obtain ⟨-, head, hhead, -⟩ := start_eq_ok_iff.mp hstart
    obtain ⟨record, hrecord, -⟩ := bind_eq_ok.mp hhead
    exact ⟨record, Decoded.lift_eq_ok.mp hrecord⟩

/-- Finishing an expression is draining what its slots hold. That the cursor
also wants the expressions among its children to exist makes no difference, as
they are finished too. -/
theorem finish_succ_eq_ok {levels index : Nat} {isEntry : Bool} {node : Partial} :
    finish r (levels + 1) index isEntry = .ok node ↔
      ∃ head held, headOf r index = .ok head ∧ r.childSlots index = .ok held ∧
        drain (finish r levels) ⟨index, defaultMaxDepth - levels, Cursor.start r index none,
          if isEntry then .entry head #[] else .ofHead head⟩ (held.map .ok) = .ok node := by
  rw [finish, bind_eq_ok]
  constructor
  · rintro ⟨f, hstart, h⟩
    obtain ⟨-, head, hhead, rfl⟩ := start_eq_ok_iff.mp hstart
    obtain ⟨held, hheld⟩ := exists_held_of_drain h
    obtain ⟨hslots, -⟩ := Cursor.toList_start_eq_map_ok.mp hheld
    exact ⟨head, held, hhead, hslots, hheld ▸ h⟩
  · rintro ⟨head, held, hhead, hslots, h⟩
    -- The drain does not say that the expressions exist, but it finished them.
    have hheld : (Cursor.start r index none).toList r = held.map .ok := by
      refine Cursor.toList_start_eq_map_ok.mpr ⟨hslots, fun child hmem => ?_⟩
      obtain ⟨isChildEntry, inner, hinner⟩ := exists_finish_of_drain h hmem
      exact exists_record_of_finish hinner
    exact ⟨_, start_eq_ok_iff.mpr ⟨Nat.sub_le _ _, head, hhead, rfl⟩, hheld ▸ h⟩

end Frame

/-- With so many levels left, the recursion behind the loop succeeds where the
eager decoder does. -/
structure Finishes (r : Regions) (limit levels : Nat) : Prop where
  expression : ∀ {index : Nat} {value : Value},
    (∃ node, Frame.finish r levels index false = .ok node ∧ node.toValue = value) ↔
      Eager.expression r limit levels index = .ok value
  entry : ∀ {index : Nat} {node : Partial},
    Frame.finish r levels index true = .ok node ↔
      ∃ head arguments, node = .entry head arguments ∧
        Eager.rawEntry r limit levels index = .ok (head, arguments.toList)

namespace Finishes

variable {r : Regions} {limit levels index : Nat} {node : Partial}

/-- The values of arguments are the same in both ways of decoding. -/
theorem mapM_value_eq_ok (h : Finishes r limit levels) {held : List Slot} {values : List Value} :
    held.mapM (Slot.value fun child => do
        return (← Frame.finish r levels child false).toValue) = .ok values ↔
      held.mapM (Slot.value (Eager.expression r limit levels)) = .ok values := by
  have hslot : ∀ (s : Slot) (value : Value),
      s.value (fun child => do return (← Frame.finish r levels child false).toValue) = .ok value ↔
        s.value (Eager.expression r limit levels) = .ok value := by
    intro s value
    cases s with
    | scalar => exact Iff.rfl
    | expression child =>
      refine bind_pure_eq_ok.trans (Iff.trans ?_ h.expression)
      exact exists_congr fun inner => and_congr_right fun _ => eq_comm
  rw [mapM_eq_ok, mapM_eq_ok]
  simp only [hslot]

/-- So are the arguments of an expression. -/
theorem children_eq_ok (h : Finishes r limit levels) {depth : Nat} {cursor : Cursor}
    {start : Partial} (hstart : start.takesEntries = false) :
    (∃ held, r.childSlots index = .ok held ∧
        Frame.drain (Frame.finish r levels) ⟨index, depth, cursor, start⟩ (held.map .ok) =
          .ok node) ↔
      ∃ values, Eager.children r (Eager.expression r limit levels) index = .ok values ∧
        node = values.foldl Partial.push start := by
  constructor
  · rintro ⟨held, hheld, hdrain⟩
    obtain ⟨values, hvalues, rfl⟩ := (Frame.drain_eq_ok_of_arguments hstart).mp hdrain
    exact ⟨values, Eager.children_eq_ok.mpr ⟨held, hheld, h.mapM_value_eq_ok.mp hvalues⟩, rfl⟩
  · rintro ⟨values, hvalues, rfl⟩
    obtain ⟨held, hheld, hvalues⟩ := Eager.children_eq_ok.mp hvalues
    exact ⟨held, hheld, (Frame.drain_eq_ok_of_arguments hstart).mpr
      ⟨values, h.mapM_value_eq_ok.mpr hvalues, rfl⟩⟩

/-- The value of an expression whose children are arguments. -/
theorem arguments_eq_ok (h : Finishes r limit levels) {depth : Nat} {cursor : Cursor}
    {wrap : Array Value → Partial} (hwrap : ∀ arguments, (wrap arguments).takesEntries = false)
    (hpush : ∀ (arguments : Array Value) (value : Value),
      (wrap arguments).push value = wrap (arguments.push value)) {value : Value} :
    (∃ node, (∃ held, r.childSlots index = .ok held ∧
        Frame.drain (Frame.finish r levels) ⟨index, depth, cursor, wrap #[]⟩ (held.map .ok) =
          .ok node) ∧ node.toValue = value) ↔
      ∃ values, Eager.children r (Eager.expression r limit levels) index = .ok values ∧
        value = (wrap values.toArray).toValue := by
  constructor
  · rintro ⟨node, hdrain, rfl⟩
    obtain ⟨values, hvalues, rfl⟩ := (h.children_eq_ok (hwrap #[])).mp hdrain
    refine ⟨values, hvalues, ?_⟩
    rw [Partial.foldl_push hpush, Array.empty_append]
  · rintro ⟨values, hvalues, rfl⟩
    refine ⟨_, (h.children_eq_ok (hwrap #[])).mpr ⟨values, hvalues, rfl⟩, ?_⟩
    rw [Partial.foldl_push hpush, Array.empty_append]

/-- The eager decoder lists the entries and then collects them; the loop folds
in each entry before it looks at the next. -/
theorem entries_eq_ok {shape : Shape} {depth : Nat} {cursor : Cursor}
    {wrap : Entries Value → Partial} {entry : Nat → Decoded (String × Value)}
    (hwrap : ∀ map, (wrap map).takesEntries = true)
    (hentry : ∀ {map : Entries Value} {child : Nat} {next : Partial},
      Frame.consume (Frame.finish r levels) ⟨index, depth, cursor, wrap map⟩
          (.ok (.expression child)) = .ok next ↔
        ∃ found, entry child = .ok found ∧
          next = wrap (Entries.insertFirst found.1 found.2 map)) :
    (∃ held, r.childSlots index = .ok held ∧
        Frame.drain (Frame.finish r levels) ⟨index, depth, cursor, wrap []⟩ (held.map .ok) =
          .ok node) ↔
      ∃ map, (Eager.entries r shape index >>= fun indices => Eager.collect entry indices []) =
          .ok map ∧ node = wrap map := by
  have hdrain : ∀ {held : List Slot}, _ ↔ _ :=
    fun {held} => @Frame.drain_eq_ok_of_entries (Frame.finish r levels)
      ⟨index, depth, cursor, wrap []⟩ wrap entry hwrap hentry [] held node
  constructor
  · rintro ⟨held, hheld, h⟩
    obtain ⟨indices, rfl, map, hmap, rfl⟩ := hdrain.mp h
    exact ⟨map, bind_eq_ok.mpr ⟨indices, Eager.entries_eq_ok.mpr hheld, hmap⟩, rfl⟩
  · rintro ⟨map, hmap, rfl⟩
    obtain ⟨indices, hindices, hmap⟩ := bind_eq_ok.mp hmap
    exact ⟨_, Eager.entries_eq_ok.mp hindices, hdrain.mpr ⟨indices, rfl, map, hmap, rfl⟩⟩

/-- A member of an object is folded in as the eager decoder reads it. -/
theorem consume_member (h : Finishes r limit levels) {depth child : Nat} {cursor : Cursor}
    {map : Entries Value} :
    Frame.consume (Frame.finish r levels) ⟨index, depth, cursor, .object map⟩
        (.ok (.expression child)) = .ok node ↔
      ∃ found, (Eager.rawEntry r limit levels child >>= fun raw =>
          objectEntry child raw.2 >>= fun value => pure (raw.1, value)) = .ok found ∧
        node = .object (Entries.insertFirst found.1 found.2 map) := by
  constructor
  · intro hconsume
    obtain ⟨inner, hinner, hconsume⟩ := bind_eq_ok.mp hconsume
    obtain ⟨key, arguments, rfl, hraw⟩ := h.entry.mp hinner
    obtain ⟨f, haccept, hnode⟩ := bind_eq_ok.mp hconsume
    cases pure_eq_ok.mp hnode
    simp only [Decoded.blaming_eq_ok, Frame.accept] at haccept
    -- Only an entry with a single argument is a member.
    split at haccept
    · next value hvalue =>
      cases haccept
      refine ⟨(key, value), ?_, rfl⟩
      rw [hraw, ok_bind, hvalue]
      rfl
    · cases haccept
  · rintro ⟨found, hfound, rfl⟩
    obtain ⟨⟨key, arguments⟩, hraw, hfound⟩ := bind_eq_ok.mp hfound
    obtain ⟨value, hvalue, hfound⟩ := bind_eq_ok.mp hfound
    cases pure_eq_ok.mp hfound
    have hinner : Frame.finish r levels child true = .ok (.entry key arguments.toArray) :=
      h.entry.mpr ⟨key, arguments.toArray, rfl, hraw⟩
    refine bind_eq_ok.mpr ⟨_, hinner, ?_⟩
    simp only [Frame.accept, hvalue]
    rfl

/-- A column of a table is folded in as the eager decoder reads it. -/
theorem consume_column (h : Finishes r limit levels) {depth child : Nat} {cursor : Cursor}
    {map : Entries Value} :
    Frame.consume (Frame.finish r levels) ⟨index, depth, cursor, .table map⟩
        (.ok (.expression child)) = .ok node ↔
      ∃ found, (Eager.rawEntry r limit levels child >>= fun raw =>
          pure (tableColumn raw.1 raw.2)) = .ok found ∧
        node = .table (Entries.insertFirst found.1 found.2 map) := by
  constructor
  · intro hconsume
    obtain ⟨inner, hinner, hconsume⟩ := bind_eq_ok.mp hconsume
    obtain ⟨head, arguments, rfl, hraw⟩ := h.entry.mp hinner
    cases hconsume
    exact ⟨_, bind_pure_eq_ok.mpr ⟨_, hraw, rfl⟩, rfl⟩
  · rintro ⟨found, hfound, rfl⟩
    obtain ⟨⟨head, arguments⟩, hraw, rfl⟩ := bind_pure_eq_ok.mp hfound
    have hinner : Frame.finish r levels child true = .ok (.entry head arguments.toArray) :=
      h.entry.mpr ⟨head, arguments.toArray, rfl, hraw⟩
    exact bind_eq_ok.mpr ⟨_, hinner, rfl⟩

/-- With one level more: the head decides what becomes of the children. -/
theorem finish_expression_eq_ok (h : Finishes r limit levels) {value : Value} :
    (∃ node, Frame.finish r (levels + 1) index false = .ok node ∧ node.toValue = value) ↔
      Eager.expression r limit (levels + 1) index = .ok value := by
  -- The head is read first, so that both sides can be compared shape by shape.
  have hfinish : (∃ node, Frame.finish r (levels + 1) index false = .ok node ∧
      node.toValue = value) ↔ ∃ head, headOf r index = .ok head ∧ ∃ node,
        (∃ held, r.childSlots index = .ok held ∧ Frame.drain (Frame.finish r levels)
          ⟨index, defaultMaxDepth - levels, Cursor.start r index none, .ofHead head⟩
          (held.map .ok) = .ok node) ∧ node.toValue = value := by
    simp only [Frame.finish_succ_eq_ok]
    constructor
    · rintro ⟨node, ⟨head, held, hhead, hheld, hdrain⟩, hvalue⟩
      exact ⟨head, hhead, node, ⟨held, hheld, hdrain⟩, hvalue⟩
    · rintro ⟨head, hhead, node, ⟨held, hheld, hdrain⟩, hvalue⟩
      exact ⟨node, ⟨head, held, hhead, hheld, hdrain⟩, hvalue⟩
  rw [hfinish, Eager.expression_succ_eq_ok]
  refine exists_congr fun head => and_congr_right fun _ => ?_
  rw [Partial.ofHead]
  cases Shape.ofHead head with
  | list => exact h.arguments_eq_ok (fun _ => rfl) (fun _ _ => rfl)
  | generic => exact h.arguments_eq_ok (fun _ => rfl) (fun _ _ => rfl)
  | object =>
    constructor
    · rintro ⟨node, hdrain, rfl⟩
      obtain ⟨map, hmap, rfl⟩ :=
        (entries_eq_ok (fun _ => rfl) h.consume_member).mp hdrain
      exact ⟨map, hmap, rfl⟩
    · rintro ⟨map, hmap, rfl⟩
      exact ⟨_, (entries_eq_ok (fun _ => rfl) h.consume_member).mpr
        ⟨map, hmap, rfl⟩, rfl⟩
  | table =>
    constructor
    · rintro ⟨node, hdrain, rfl⟩
      obtain ⟨map, hmap, rfl⟩ :=
        (entries_eq_ok (fun _ => rfl) h.consume_column).mp hdrain
      exact ⟨map, hmap, rfl⟩
    · rintro ⟨map, hmap, rfl⟩
      exact ⟨_, (entries_eq_ok (fun _ => rfl) h.consume_column).mpr
        ⟨map, hmap, rfl⟩, rfl⟩

/-- With one level more, an entry has the arguments that its slots hold. -/
theorem finish_entry_eq_ok (h : Finishes r limit levels) :
    Frame.finish r (levels + 1) index true = .ok node ↔
      ∃ head arguments, node = .entry head arguments ∧
        Eager.rawEntry r limit (levels + 1) index = .ok (head, arguments.toList) := by
  simp only [Frame.finish_succ_eq_ok, Eager.rawEntry_succ_eq_ok]
  constructor
  · rintro ⟨head, held, hhead, hheld, hdrain⟩
    obtain ⟨values, hvalues, rfl⟩ := (h.children_eq_ok rfl).mp ⟨held, hheld, hdrain⟩
    refine ⟨head, values.toArray, ?_, hhead, hvalues⟩
    show values.foldl Partial.push (.entry head #[]) = _
    rw [Partial.foldl_push fun _ _ => rfl, Array.empty_append]
  · rintro ⟨head, arguments, rfl, hhead, hvalues⟩
    have hnode : Partial.entry head arguments =
        arguments.toList.foldl Partial.push (.entry head #[]) := by
      rw [Partial.foldl_push fun _ _ => rfl, Array.empty_append]
    obtain ⟨held, hheld, hdrain⟩ := (h.children_eq_ok rfl).mpr ⟨_, hvalues, hnode⟩
    exact ⟨head, held, hhead, hheld, hdrain⟩

end Finishes

theorem finishes (r : Regions) (limit : Nat) : ∀ levels, Finishes r limit levels
  | 0 => by
    -- With no level left, neither side opens anything.
    refine ⟨fun {index value} => ?_, fun {index node} => ?_⟩
    · rw [Eager.expression]
      refine iff_of_false ?_ (fun h => by cases h)
      rintro ⟨node, h, -⟩
      cases h
    · rw [Eager.rawEntry]
      refine iff_of_false (fun h => by cases h) ?_
      rintro ⟨_, _, -, h⟩
      cases h
  | levels + 1 =>
    have ih := finishes r limit levels
    ⟨ih.finish_expression_eq_ok, ih.finish_entry_eq_ok⟩

/-! ## Views -/

namespace View

/-- A view is materialized by finishing its expression with all levels left. -/
theorem materialize_eq (v : View) :
    v.materialize =
      Frame.finish v.regions (defaultMaxDepth + 1) v.index false >>= fun node =>
        pure node.toValue := by
  show (Frame.start v.regions v.index 0 false >>= fun root => Stack.run v.regions ⟨root, []⟩) = _
  rw [Frame.finish, Nat.sub_self, bind_assoc]
  cases hroot : Frame.start v.regions v.index 0 false with
  | error e => rfl
  | ok root =>
    obtain ⟨-, head, -, rfl⟩ := Frame.start_eq_ok_iff.mp hroot
    rw [ok_bind, ok_bind, Stack.run_eq]
    rfl

theorem materialize_eq_ok {v : View} {value : Value} :
    v.materialize = .ok value ↔
      ∃ node, Frame.finish v.regions (defaultMaxDepth + 1) v.index false = .ok node ∧
        node.toValue = value := by
  rw [materialize_eq, bind_pure_eq_ok]
  simp only [eq_comm]

/-- **Both ways of decoding agree**: on every buffer and for every expression of
it, the eager decoder with the usual limit returns a value if and only if the
view of that expression materializes to it. -/
theorem decodeExpression_eq_ok_iff_materialize (r : Regions) (index : Nat) (value : Value) :
    Eager.decodeExpression r defaultMaxDepth index = .ok value ↔
      (ofIndex r index >>= materialize) = .ok value := by
  rw [Eager.decodeExpression, ← (finishes r defaultMaxDepth (defaultMaxDepth + 1)).expression]
  constructor
  · rintro ⟨node, hfinish, hvalue⟩
    obtain ⟨record, hrecord⟩ := Frame.exists_record_of_finish hfinish
    refine bind_eq_ok.mpr ⟨⟨r, index⟩, ?_, materialize_eq_ok.mpr ⟨node, hfinish, hvalue⟩⟩
    exact bind_pure_eq_ok.mpr ⟨record, Decoded.lift_eq_ok.mpr hrecord, rfl⟩
  · intro h
    obtain ⟨v, hview, hvalue⟩ := bind_eq_ok.mp h
    obtain ⟨_, -, rfl⟩ := bind_pure_eq_ok.mp hview
    have hfinish := materialize_eq_ok.mp hvalue
    exact hfinish

end View

end FlatTree
