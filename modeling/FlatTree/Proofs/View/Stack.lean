import FlatTree.Proofs.View.Walk
import FlatTree.Proofs.View.Arguments

/-!
# The stack of open expressions

A view is materialized by a loop over the expressions that are open, each with a cursor of
its own. What is true of all of them together is decided when one is opened: it is the
child that the cursor below it has just yielded, it is one level deeper, and it is kept raw
exactly if an object or a table takes it. No step changes that of an expression that stays
open.

- `View.Reaches`: the states of the loop for a view.
- `Stack.Nested`: the invariant, from the top of the stack down to the root; `nested_of_step`
  is its step lemma, with a case for each kind of step, and `nested_of_reaches` its run lemma.
- `Frame.folds_accept`: what folding a child in comes to when the child is raw exactly if it
  has to be.
- `View.stack_sound`: the same position by position, and what follows from it.
-/

namespace FlatTree

/-- The states of the loop that materializes a view. -/
inductive View.Reaches (v : View) : Stack → Prop where
  | start {root : Frame} : Frame.start v.regions v.index 0 false = .ok root → Reaches v ⟨root, []⟩
  | step {s s' : Stack} : Reaches v s → s.step v.regions = .running s' → Reaches v s'

/-! ## One open expression -/

/-- Whether this is an entry of an object or a table, which is kept raw. -/
def Partial.isEntry : Partial → Bool
  | entry _ _ => true
  | _ => false

theorem Partial.isEntry_ofHead (head : String) : (ofHead head).isEntry = false := by
  unfold ofHead
  cases Shape.ofHead head <;> rfl

/-- Neither what is kept raw nor what is taken changes when more is decoded. -/
structure Partial.Grows (node node' : Partial) : Prop where
  isEntry : node'.isEntry = node.isEntry
  takesEntries : node'.takesEntries = node.takesEntries

/-- A head is not read for a fault, and nothing is blamed for that yet. -/
theorem headOf_eq_error {r : Regions} {index : Nat} {e : DecodeError}
    (h : headOf r index = .error e) : ∃ fault, e = .ofFault fault := by
  unfold headOf at h
  rcases bind_eq_error.mp h with h | ⟨record, -, h⟩
  · obtain ⟨fault, -, heq⟩ := Decoded.lift_eq_error.mp h
    exact ⟨fault, heq⟩
  · obtain ⟨fault, -, heq⟩ := Decoded.lift_eq_error.mp h
    exact ⟨fault, heq⟩

namespace Frame

variable {r : Regions}

/-- The cursor of an open expression is a fresh one after so many calls. -/
def Called (r : Regions) (f : Frame) (n : Nat) : Prop :=
  f.cursor = Calls.after (Cursor.call r) (Cursor.start r f.index none) n

/-- The last thing that the cursor of an open expression yielded is this child. -/
def YieldedLast (r : Regions) (f : Frame) (child : Nat) : Prop :=
  ∃ n, f.Called r (n + 1) ∧
    Calls.answer (Cursor.call r) (Cursor.start r f.index none) n = some (.ok (.expression child))

/-- What a cursor yields, it yields in its place, and the cursor after it has been called
once more. -/
theorem Called.next {f : Frame} {n : Nat} {item : Decoded Slot} {cursor : Cursor}
    (h : f.Called r n) (hnext : f.cursor.next r = some (item, cursor)) :
    Called r { f with cursor } (n + 1) ∧
      Calls.answer (Cursor.call r) (Cursor.start r f.index none) n = some item := by
  unfold Called at h
  have hcall : Cursor.call r (Calls.after (Cursor.call r) (Cursor.start r f.index none) n) =
      (some item, cursor) := by
    rw [← h, Cursor.call, hnext]
  constructor
  · show cursor = Calls.after (Cursor.call r) (Cursor.start r f.index none) (n + 1)
    rw [Calls.after_succ, hcall]
  · rw [Calls.answer, hcall]

/-- A child that is found among the others is one of the children. -/
theorem Called.mem_toList {f : Frame} {n : Nat} {item : Decoded Slot} {cursor : Cursor}
    (h : f.Called r n) (hnext : f.cursor.next r = some (item, cursor)) :
    item ∈ (Cursor.start r f.index none).toList r := by
  have hanswer := (h.next hnext).2
  rw [Cursor.yield_toList] at hanswer
  exact List.mem_of_getElem? hanswer

/-- A freshly opened expression is kept raw if it is opened as an entry. -/
theorem isEntry_of_start {child depth : Nat} {isEntry : Bool} {f : Frame}
    (h : start r child depth isEntry = .ok f) : f.node.isEntry = isEntry := by
  obtain ⟨-, head, -, rfl⟩ := start_eq_ok_iff.mp h
  cases isEntry with
  | true => rfl
  | false => exact Partial.isEntry_ofHead head

/-- An expression that is not opened is blamed itself, for its depth or its head. -/
theorem start_eq_error {child depth : Nat} {isEntry : Bool} {e : DecodeError}
    (h : start r child depth isEntry = .error e) :
    ∃ cause, e = ⟨cause, some child⟩ ∧
      (cause = .depthLimitExceeded defaultMaxDepth ∨ ∃ fault, cause = .fault fault) := by
  by_cases hdepth : defaultMaxDepth < depth
  · rw [start_of_lt hdepth] at h
    cases h
    exact ⟨_, rfl, .inl rfl⟩
  · rw [start, if_neg hdepth] at h
    obtain ⟨inner, hinner, rfl⟩ := Decoded.blaming_eq_error.mp h
    obtain ⟨_, hhead, rfl⟩ := Decoded.blaming_eq_error.mp (bind_pure_eq_error.mp hinner)
    obtain ⟨fault, rfl⟩ := headOf_eq_error hhead
    exact ⟨.fault fault, rfl, .inr ⟨fault, rfl⟩⟩

/-- A scalar is added to what takes arguments. -/
theorem grows_of_pushScalar {f f' : Frame} {value : Scalar} (h : f.pushScalar value = .ok f') :
    f.node.Grows f'.node := by
  obtain ⟨index, depth, cursor, node⟩ := f
  cases node with
  | object => cases h
  | table => cases h
  | _ =>
    cases h
    exact ⟨rfl, rfl⟩

/-- A scalar is refused by what takes entries, and only there. -/
theorem eq_of_pushScalar_error {f : Frame} {value : Scalar} {e : DecodeError}
    (h : f.pushScalar value = .error e) :
    f.node.takesEntries = true ∧ e = f.notAnEntry := by
  obtain ⟨index, depth, cursor, node⟩ := f
  cases node with
  | object =>
    cases h
    exact ⟨rfl, rfl⟩
  | table =>
    cases h
    exact ⟨rfl, rfl⟩
  | _ => cases h

/-- What folding a child in comes to: the value of a child that is no entry is an argument,
and an entry is resolved by the rule for entries, which only that of an object can break. -/
inductive Folds (f child : Frame) : Decoded Frame → Prop where
  | argument : f.node.takesEntries = false → child.node.isEntry = false →
    Folds f child (.ok { f with node := f.node.push child.node.toValue })
  | member {entries : Entries Value} {key : String} {arguments : Array Value} {value : Value} :
    f.node = .object entries → child.node = .entry key arguments →
    objectEntry child.index arguments.toList = .ok value →
    Folds f child (.ok { f with node := .object (Entries.insertFirst key value entries) })
  | refused {entries : Entries Value} {key : String} {arguments : Array Value} {e : DecodeError} :
    f.node = .object entries → child.node = .entry key arguments →
    objectEntry child.index arguments.toList = .error e →
    Folds f child (.error e)
  | column {columns : Entries Value} {head : String} {arguments : Array Value} :
    f.node = .table columns → child.node = .entry head arguments →
    Folds f child (.ok { f with node := .table (Entries.insertFirst
      (tableColumn head arguments.toList).1 (tableColumn head arguments.toList).2 columns) })

/-- **A raw child meets only what takes entries**, and the other way round, so that the two
failures for a child that is no entry do not happen. -/
theorem folds_accept {f child : Frame} (h : child.node.isEntry = f.node.takesEntries) :
    f.Folds child (f.accept child) := by
  obtain ⟨index, depth, cursor, node⟩ := f
  cases node with
  | list items => exact .argument rfl h
  | generic head arguments => exact .argument rfl h
  | entry head arguments => exact .argument rfl h
  | object entries =>
    obtain ⟨childIndex, childDepth, childCursor, childNode⟩ := child
    cases childNode with
    | entry key arguments =>
      simp only [accept]
      cases hentry : objectEntry childIndex arguments.toList with
      | ok value => exact .member rfl rfl hentry
      | error e => exact .refused rfl rfl hentry
    | _ => cases h
  | table columns =>
    obtain ⟨childIndex, childDepth, childCursor, childNode⟩ := child
    cases childNode with
    | entry key arguments => exact .column rfl rfl
    | _ => cases h

/-- A child that is folded in breaks no rule but that for the argument of an entry. -/
theorem Folds.error {f child : Frame} {e : DecodeError} (h : f.Folds child (.error e)) :
    e = .ofCause (.malformedShape .object child.index .notOneArgument) := by
  cases h with
  | refused _ _ hentry =>
    rw [objectEntry.eq_def] at hentry
    split at hentry
    · cases hentry
    · cases hentry
      rfl

theorem notAnEntry_eq (f : Frame) :
    ∃ shape, f.notAnEntry = .ofCause (.malformedShape shape f.index .notAnExpression) := by
  unfold notAnEntry
  split
  · exact ⟨_, rfl⟩
  · exact ⟨_, rfl⟩

/-- So it never fails for a child that is no entry. -/
theorem Folds.ne_notAnEntry {f child : Frame} {outcome : Decoded Frame}
    (h : f.Folds child outcome) : outcome ≠ .error f.notAnEntry := by
  rintro rfl
  obtain ⟨shape, hshape⟩ := f.notAnEntry_eq
  have herror := h.error
  rw [hshape] at herror
  simp [DecodeError.ofCause] at herror

theorem Folds.grows {f f' child : Frame} (h : f.Folds child (.ok f')) :
    f.node.Grows f'.node := by
  cases h with
  | argument htakes _ =>
    refine ⟨?_, Partial.takesEntries_push _ _⟩
    cases hnode : f.node <;> rfl
  | member hnode _ _ => exact ⟨by rw [hnode]; rfl, by rw [hnode]; rfl⟩
  | column hnode _ => exact ⟨by rw [hnode]; rfl, by rw [hnode]; rfl⟩

end Frame

/-! ## The invariant -/

/-- How an expression stands on the one below it. -/
structure Frame.StandsOn (r : Regions) (f parent : Frame) : Prop where
  /-- It is the child that was met last. -/
  latest : parent.YieldedLast r f.index
  depth : f.depth = parent.depth + 1
  within : f.depth ≤ defaultMaxDepth
  /-- It is kept raw exactly if an object or a table takes it. -/
  entry : f.node.isEntry = parent.node.takesEntries

namespace Stack

variable {r : Regions} {index : Nat}

/-- What holds of the open expressions: the lowest is the one that is materialized, each of
the others stands on the one below it, and all cursors have been called some times. -/
inductive Nested (r : Regions) (index : Nat) : Frame → List Frame → Prop where
  | root {f : Frame} {n : Nat} : f.index = index → f.depth = 0 → f.node.isEntry = false →
    f.Called r n → Nested r index f []
  | child {f parent : Frame} {rest : List Frame} {n : Nat} : f.StandsOn r parent →
    f.Called r n → Nested r index parent rest → Nested r index f (parent :: rest)

theorem Nested.called {f : Frame} {below : List Frame} (h : Nested r index f below) :
    ∃ n, f.Called r n := by
  cases h with
  | root _ _ _ hcalled => exact ⟨_, hcalled⟩
  | child _ hcalled _ => exact ⟨_, hcalled⟩

/-- What goes on in the expression on top does not change how it stands on the others. -/
theorem Nested.replace {f f' : Frame} {below : List Frame} {n : Nat}
    (h : Nested r index f below) (hindex : f'.index = f.index) (hdepth : f'.depth = f.depth)
    (hnode : f.node.Grows f'.node) (hcalled : f'.Called r n) : Nested r index f' below := by
  cases h with
  | root hroot hzero hraw _ =>
    exact .root (hindex.trans hroot) (hdepth.trans hzero) (hnode.isEntry.trans hraw) hcalled
  | child hstands _ hbelow =>
    refine .child ⟨?_, hdepth.trans hstands.depth, ?_, hnode.isEntry.trans hstands.entry⟩ hcalled
      hbelow
    · rw [hindex]
      exact hstands.latest
    · rw [hdepth]
      exact hstands.within

/-- The expression on top is folded into the one below it by the rule for what it is, and
without it the others are as they have to be. -/
theorem Nested.folds {f parent : Frame} {rest : List Frame}
    (h : Nested r index f (parent :: rest)) :
    parent.Folds f (parent.accept f) ∧ Nested r index parent rest := by
  cases h with
  | child hstands _ hrest => exact ⟨Frame.folds_accept hstands.entry, hrest⟩

/-- The root is opened as no entry. -/
theorem nested_of_start {root : Frame} (h : Frame.start r index 0 false = .ok root) :
    Nested r index root [] := by
  have hraw := Frame.isEntry_of_start h
  obtain ⟨-, head, -, rfl⟩ := Frame.start_eq_ok_iff.mp h
  exact .root rfl rfl hraw (n := 0) rfl

/-- **A step keeps the invariant.** -/
theorem nested_of_step {s s' : Stack} (h : Nested r index s.top s.below)
    (hstep : s.step r = .running s') : Nested r index s'.top s'.below := by
  have hspec := stepsTo_step r s
  rw [hstep] at hspec
  obtain ⟨n, hcalled⟩ := h.called
  cases hspec with
  | @opens child cursor frame hnext hstart =>
    -- The cursor that yielded the child has been called once more, for this child.
    obtain ⟨hcalled', hanswer⟩ := hcalled.next hnext
    have hbelow : Nested r index { s.top with cursor } s.below :=
      h.replace rfl rfl ⟨rfl, rfl⟩ hcalled'
    have hraw := Frame.isEntry_of_start hstart
    obtain ⟨hdepth, head, -, rfl⟩ := Frame.start_eq_ok_iff.mp hstart
    exact .child ⟨⟨n, hcalled', hanswer⟩, rfl, hdepth, hraw⟩ (n := 0) rfl hbelow
  | adds hnext hpush =>
    have hcalled' := (hcalled.next hnext).1
    have hgrows := Frame.grows_of_pushScalar hpush
    rw [Frame.eq_of_pushScalar hpush]
    exact h.replace rfl rfl hgrows hcalled'
  | folds hnext hbelow haccept =>
    rw [hbelow] at h
    obtain ⟨hfolds, hrest⟩ := h.folds
    rw [haccept] at hfolds
    obtain ⟨m, hparent⟩ := hrest.called
    rw [Frame.eq_of_accept haccept]
    exact hrest.replace rfl rfl hfolds.grows hparent

/-! ## Position by position -/

/-- A position in a list with one more at its end is in the list, or is the end. -/
theorem getElem?_concat_eq_some {α : Type} {as : List α} {a b : α} {k : Nat} :
    (as ++ [a])[k]? = some b ↔ as[k]? = some b ∨ k = as.length ∧ a = b := by
  rw [List.getElem?_append]
  by_cases hk : k < as.length
  · simp [hk, Nat.ne_of_lt hk]
  · by_cases heq : k = as.length
    · subst heq
      simp
    · rw [if_neg hk, List.getElem?_eq_none (by simp; omega), List.getElem?_eq_none (by omega)]
      simp [heq]

/-- The open expressions, the lowest first. -/
def frames (s : Stack) : List Frame := (s.top :: s.below).reverse

theorem frames_ne_nil (s : Stack) : s.frames ≠ [] := by
  simp [frames]

/-- The expression that is materialized. -/
def root (s : Stack) : Frame := s.frames.head s.frames_ne_nil

/-- The expressions that were opened on top of it, the lowest first. -/
def opened (s : Stack) : List Frame := s.frames.tail

theorem frames_eq_cons (s : Stack) : s.frames = s.root :: s.opened :=
  (List.cons_head_tail s.frames_ne_nil).symm

theorem frames_cons (f parent : Frame) (rest : List Frame) :
    frames ⟨f, parent :: rest⟩ = frames ⟨parent, rest⟩ ++ [f] := by
  simp [frames]

theorem length_frames (s : Stack) : s.frames.length = s.below.length + 1 := by
  simp [frames]

/-- How deep the top is. -/
theorem Nested.depth_top {f : Frame} {below : List Frame} (h : Nested r index f below) :
    f.depth = below.length := by
  induction h with
  | root _ hzero _ _ => exact hzero
  | child hstands _ _ ih => rw [hstands.depth, ih, List.length_cons]

theorem Nested.length_le {f : Frame} {below : List Frame} (h : Nested r index f below) :
    below.length ≤ defaultMaxDepth := by
  rw [← h.depth_top]
  cases h with
  | root _ hzero _ _ => rw [hzero]; exact Nat.zero_le _
  | child hstands _ _ => exact hstands.within

/-- The root is the lowest of the open expressions. -/
theorem Nested.root_eq {f : Frame} {below : List Frame} (h : Nested r index f below) :
    (Stack.mk f below).root.index = index ∧ (Stack.mk f below).root.depth = 0 ∧
      (Stack.mk f below).root.node.isEntry = false := by
  induction h with
  | root hindex hzero hraw _ => exact ⟨hindex, hzero, hraw⟩
  | @child f parent rest _ _ _ _ ih =>
    have hroot : (Stack.mk f (parent :: rest)).root = (Stack.mk parent rest).root := by
      simp only [Stack.root, frames_cons]
      exact List.head_append_of_ne_nil _
    rw [hroot]
    exact ih

/-- Each open expression is as deep as there are others below it. -/
theorem Nested.depth_eq {f : Frame} {below : List Frame} (h : Nested r index f below) :
    ∀ {k : Nat} {g : Frame}, (frames ⟨f, below⟩)[k]? = some g → g.depth = k := by
  induction h with
  | @root f _ _ hzero _ _ =>
    intro k g hk
    have hk : ([] ++ [f])[k]? = some g := hk
    rcases getElem?_concat_eq_some.mp hk with hk | ⟨rfl, rfl⟩
    · cases hk
    · exact hzero
  | child hstands hcalled hbelow ih =>
    intro k g hk
    rw [frames_cons] at hk
    rcases getElem?_concat_eq_some.mp hk with hk | ⟨rfl, rfl⟩
    · exact ih hk
    · rw [length_frames, (Nested.child hstands hcalled hbelow).depth_top, List.length_cons]

/-- Each open expression stands on the one below it. -/
theorem Nested.standsOn {f : Frame} {below : List Frame} (h : Nested r index f below) :
    ∀ {k : Nat} {parent g : Frame}, (frames ⟨f, below⟩)[k]? = some parent →
      (frames ⟨f, below⟩)[k + 1]? = some g → g.StandsOn r parent := by
  induction h with
  | root =>
    intro k parent g _ hg
    cases hg
  | @child f top rest _ hstands _ _ ih =>
    intro k parent g hparent hg
    rw [frames_cons] at hparent hg
    rcases getElem?_concat_eq_some.mp hg with hg | ⟨hlast, rfl⟩
    · rcases getElem?_concat_eq_some.mp hparent with hparent | ⟨rfl, -⟩
      · exact ih hparent hg
      · -- Nothing comes after the last position.
        rw [List.getElem?_eq_none (Nat.le_succ _)] at hg
        cases hg
    · -- Below the top is what was the top before it.
      have hk : k = rest.reverse.length := by
        rw [length_frames] at hlast
        simpa using hlast
      rcases getElem?_concat_eq_some.mp hparent with hparent | ⟨rfl, -⟩
      · rw [frames, List.reverse_cons, hk, List.getElem?_concat_length] at hparent
        cases hparent
        exact hstands
      · omega

/-- What holds of the open expressions, the lowest first. -/
structure Sound (r : Regions) (index : Nat) (s : Stack) : Prop where
  root_index : s.root.index = index
  root_depth : s.root.depth = 0
  root_entry : s.root.node.isEntry = false
  size : s.opened.length ≤ defaultMaxDepth
  depth : ∀ (k : Nat) (f : Frame), s.opened[k]? = some f → f.depth = k + 1
  /-- Each is the child that the one below it met last. -/
  latest : ∀ (k : Nat) (parent f : Frame), (s.root :: s.opened)[k]? = some parent →
    s.opened[k]? = some f → parent.YieldedLast r f.index
  /-- Each is kept raw exactly if the one below it is an object or a table. -/
  entry : ∀ (k : Nat) (parent f : Frame), (s.root :: s.opened)[k]? = some parent →
    s.opened[k]? = some f → f.node.isEntry = parent.node.takesEntries

theorem Nested.sound {s : Stack} (h : Nested r index s.top s.below) : s.Sound r index := by
  have hframes := s.frames_eq_cons
  have hnext : ∀ k, s.opened[k]? = s.frames[k + 1]? := by
    intro k
    rw [hframes, List.getElem?_cons_succ]
  obtain ⟨hindex, hzero, hraw⟩ := h.root_eq
  refine ⟨hindex, hzero, hraw, ?_, fun k f hf => ?_, fun k parent f hparent hf => ?_,
    fun k parent f hparent hf => ?_⟩
  · have hlength := s.length_frames
    rw [hframes, List.length_cons] at hlength
    have hle := h.length_le
    omega
  · exact h.depth_eq ((hnext k).symm.trans hf)
  · exact (h.standsOn (hframes ▸ hparent) ((hnext k).symm.trans hf)).latest
  · exact (h.standsOn (hframes ▸ hparent) ((hnext k).symm.trans hf)).entry

end Stack

/-! ## Runs -/

namespace Progress

/-- The state of a loop that goes on. -/
def state? : Progress → Option Stack
  | running s => some s
  | finished _ => none

/-- The error that the loop has finished with. -/
def error? : Progress → Option DecodeError
  | finished (.error e) => some e
  | _ => none

theorem state?_eq_some {p : Progress} {s : Stack} : p.state? = some s ↔ p = running s := by
  cases p with
  | running s' => simp [state?]
  | finished outcome => simp [state?]

theorem error?_eq_some {p : Progress} {e : DecodeError} :
    p.error? = some e ↔ p = finished (.error e) := by
  cases p with
  | running s => simp [error?]
  | finished outcome => cases outcome <;> simp [error?]

end Progress

namespace Stack

variable {r : Regions}

/-- So many steps, or fewer if the loop finishes. -/
def steps (r : Regions) : Nat → Stack → Progress
  | 0, s => .running s
  | n + 1, s =>
    match s.step r with
    | .running s' => steps r n s'
    | .finished outcome => .finished outcome

/-- What the loop comes to is what it finishes with. -/
theorem run_of_steps {n : Nat} {s : Stack} {outcome : Decoded Value}
    (h : steps r n s = .finished outcome) : run r s = outcome := by
  induction n generalizing s with
  | zero => cases h
  | succ n ih =>
    rw [run_eq_step]
    unfold steps at h
    cases hstep : s.step r with
    | finished outcome' =>
      rw [hstep] at h
      cases h
      rfl
    | running s' =>
      rw [hstep] at h
      exact ih h

end Stack

namespace View

variable {v : View}

/-- What has become of a view after so many steps. -/
def progress (v : View) (n : Nat) : Progress :=
  match Frame.start v.regions v.index 0 false with
  | .ok root => Stack.steps v.regions n ⟨root, []⟩
  | .error e => .finished (.error e)

theorem Reaches.steps {s s' : Stack} {n : Nat} (h : v.Reaches s)
    (hsteps : s.steps v.regions n = .running s') : v.Reaches s' := by
  induction n generalizing s with
  | zero =>
    cases hsteps
    exact h
  | succ n ih =>
    unfold Stack.steps at hsteps
    cases hstep : s.step v.regions with
    | finished outcome =>
      rw [hstep] at hsteps
      cases hsteps
    | running next =>
      rw [hstep] at hsteps
      exact ih (h.step hstep) hsteps

theorem reaches_of_progress {n : Nat} {s : Stack} (h : v.progress n = .running s) :
    v.Reaches s := by
  unfold progress at h
  split at h
  · next hstart => exact (Reaches.start hstart).steps h
  · cases h

theorem materialize_of_progress {n : Nat} {outcome : Decoded Value}
    (h : v.progress n = .finished outcome) : v.materialize = outcome := by
  unfold progress at h
  unfold materialize
  split at h
  · next hstart =>
    rw [hstart]
    exact Stack.run_of_steps h
  · next hstart =>
    rw [hstart]
    cases h
    rfl

theorem materialize_of_error? {n : Nat} {e : DecodeError} (h : (v.progress n).error? = some e) :
    v.materialize = .error e :=
  materialize_of_progress (Progress.error?_eq_some.mp h)

/-- From every state the loop goes on to one in which it finishes. -/
theorem Reaches.exists_finished {s : Stack} (h : v.Reaches s) :
    ∃ last, v.Reaches last ∧ last.step v.regions = .finished (Stack.run v.regions s) := by
  rw [Stack.run_eq_step]
  cases hstep : s.step v.regions with
  | finished outcome => exact ⟨s, h, hstep⟩
  | running next =>
    have hless := Stack.weight_lt_of_step v.regions hstep
    exact (h.step hstep).exists_finished
termination_by s.weight v.regions

/-- A view fails because it is not opened, or in a step. -/
theorem materialize_eq_error {e : DecodeError} (h : v.materialize = .error e) :
    Frame.start v.regions v.index 0 false = .error e ∨
      ∃ s, v.Reaches s ∧ s.step v.regions = .finished (.error e) := by
  unfold materialize at h
  rcases bind_eq_error.mp h with hstart | ⟨root, hstart, hrun⟩
  · exact .inl hstart
  · obtain ⟨s, hreaches, hstep⟩ := (Reaches.start hstart).exists_finished
    rw [hrun] at hstep
    exact .inr ⟨s, hreaches, hstep⟩

/-- **Every state of the loop keeps the invariant.** -/
theorem nested_of_reaches {s : Stack} (h : v.Reaches s) :
    Stack.Nested v.regions v.index s.top s.below := by
  induction h with
  | start hstart => exact Stack.nested_of_start hstart
  | step _ hstep ih => exact Stack.nested_of_step ih hstep

end View

/-! ## What follows from the invariant -/

namespace Stack

variable {r : Regions} {index : Nat} {s : Stack}

/-- What is returned is the value of the root, which is no entry. -/
theorem Nested.value_of_step {value : Value} (h : Nested r index s.top s.below)
    (hstep : s.step r = .finished (.ok value)) :
    s.top.node.isEntry = false ∧ value = s.top.node.toValue := by
  have hspec := stepsTo_step r s
  rw [hstep] at hspec
  cases hspec with
  | ends hnext hbelow =>
    rw [hbelow] at h
    cases h with
    | root _ _ hraw _ => exact ⟨hraw, rfl⟩

/-- **A child that is no expression is met as such**: the loop complains of it only where an
object or a table has just yielded a scalar. -/
theorem Nested.scalar_of_step {e : DecodeError} {shape : Shape} {i : Nat}
    (h : Nested r index s.top s.below) (hstep : s.step r = .finished (.error e))
    (hcause : e.cause = .malformedShape shape i .notAnExpression) :
    s.top.index = i ∧ s.top.node.takesEntries = true ∧
      ∃ value cursor, s.top.cursor.next r = some (.ok (.scalar value), cursor) := by
  have hspec := stepsTo_step r s
  rw [hstep] at hspec
  obtain ⟨n, hcalled⟩ := h.called
  cases hspec with
  | unopened hnext hstart =>
    obtain ⟨cause, rfl, rfl | ⟨fault, rfl⟩⟩ := Frame.start_eq_error hstart
    · cases hcause
    · cases hcause
  | breaks hnext =>
    obtain ⟨fault, rfl⟩ := Cursor.error_of_mem_toList (hcalled.mem_toList hnext)
    cases hcause
  | refuses hnext hpush =>
    obtain ⟨htakes, rfl⟩ := Frame.eq_of_pushScalar_error hpush
    obtain ⟨shape', hshape⟩ := Frame.notAnEntry_eq _
    rw [DecodeError.cause_blame, hshape] at hcause
    cases hcause
    exact ⟨rfl, htakes, _, _, hnext⟩
  | unfolded hnext hbelow haccept =>
    rw [hbelow] at h
    have hfolds := h.folds.1
    rw [haccept] at hfolds
    rw [DecodeError.cause_blame, hfolds.error] at hcause
    cases hcause

end Stack

namespace View

/-- **The stack is sound.** In every state of the loop the root is at depth 0 and no entry,
at most 256 expressions are open above it, each one level deeper than the one below it, which
met it last, and each is kept raw exactly if the one below it is an object or a table. So a
child is folded in by the rule for what it is, no entry is ever taken for a value, and a
child that is no expression is complained of only where it is a scalar. -/
theorem stack_sound (v : View) :
    (∀ s, v.Reaches s → s.Sound v.regions v.index ∧
      (∀ parent rest, s.below = parent :: rest → parent.Folds s.top (parent.accept s.top) ∧
        parent.accept s.top ≠ .error parent.notAnEntry) ∧
      ∀ value, s.step v.regions = .finished (.ok value) →
        s.top.node.isEntry = false ∧ value = s.top.node.toValue) ∧
    ∀ e shape i, v.materialize = .error e → e.cause = .malformedShape shape i .notAnExpression →
      ∃ s value cursor, v.Reaches s ∧ s.step v.regions = .finished (.error e) ∧
        s.top.index = i ∧ s.top.node.takesEntries = true ∧
        s.top.cursor.next v.regions = some (.ok (.scalar value), cursor) := by
  refine ⟨fun s hreaches => ?_, fun e shape i hfailed hcause => ?_⟩
  · have hnested := nested_of_reaches hreaches
    refine ⟨hnested.sound, fun parent rest hbelow => ?_, fun value => hnested.value_of_step⟩
    rw [hbelow] at hnested
    have hfolds := hnested.folds.1
    exact ⟨hfolds, hfolds.ne_notAnEntry⟩
  · rcases materialize_eq_error hfailed with hstart | ⟨s, hreaches, hstep⟩
    · obtain ⟨cause, rfl, rfl | ⟨fault, rfl⟩⟩ := Frame.start_eq_error hstart
      · cases hcause
      · cases hcause
    · obtain ⟨hindex, htakes, value, cursor, hnext⟩ :=
        (nested_of_reaches hreaches).scalar_of_step hstep hcause
      exact ⟨s, value, cursor, hreaches, hstep, hindex, htakes, hnext⟩

/-- An object with an entry that holds a list, and with a bool beside it. -/
def looseObject : RawBuffer where
  args := #[0, 1, 1, 2, 7]
  tags := #[5, 5, 0, 5, 1]
  exprs := #[⟨0, 1, 3⟩, ⟨7, 3, 4⟩, ⟨9, 4, 5⟩]
  strings := RawBuffer.textEntry "Object" ++ RawBuffer.textEntry "k" ++ RawBuffer.textEntry "List"

/-- The list is open above its entry after two steps, and both are folded in before the
object is complained of for the bool. -/
theorem stack_sound_looseObject :
    (∃ s, (View.mk looseObject.regions 0).Reaches s ∧ s.opened.map (·.index) = [1, 2] ∧
      s.Sound looseObject.regions 0) ∧
    (View.mk looseObject.regions 0).materialize =
      .error ⟨.malformedShape .object 0 .notAnExpression, some 0⟩ ∧
    ∃ s value cursor, (View.mk looseObject.regions 0).Reaches s ∧ s.top.index = 0 ∧
      s.top.cursor.next looseObject.regions = some (.ok (.scalar value), cursor) := by
  have hopened : ((View.mk looseObject.regions 0).progress 2).state?.map
      (fun s => s.opened.map (·.index)) = some [1, 2] := by decide +kernel
  have hrefused : ((View.mk looseObject.regions 0).progress 6).error? =
      some ⟨.malformedShape .object 0 .notAnExpression, some 0⟩ := by decide +kernel
  have hfailed := materialize_of_error? hrefused
  obtain ⟨hstates, herrors⟩ := stack_sound ⟨looseObject.regions, 0⟩
  refine ⟨?_, ?_⟩
  · obtain ⟨s, hs, hindices⟩ := Option.map_eq_some_iff.mp hopened
    have hreaches := reaches_of_progress (Progress.state?_eq_some.mp hs)
    exact ⟨s, hreaches, hindices, (hstates s hreaches).1⟩
  · obtain ⟨s, value, cursor, hreaches, -, hindex, -, hnext⟩ := herrors _ _ _ hfailed rfl
    exact ⟨hfailed, s, value, cursor, hreaches, hindex, hnext⟩

end View

end FlatTree
