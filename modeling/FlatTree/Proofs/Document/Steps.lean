import FlatTree.Document.Writer
import FlatTree.Proofs.Build.Stored

/-!
# Writing step by step

Writing a tree is a sequence of steps: a scalar is added, or an expression starts or
ends. A step assigns a word to the next free slot of the current expression, or no
slot at all, so the steps of a tree say which slots are assigned, and in which order.

- `Writer.Step`, `Tree.steps`: the steps of writing a tree.
- `Writer.writeTree_eq_steps`: writing a tree is taking its steps.
- `Writer.assignments`: what steps assign.
- `Writer.args_of_steps`: the slots hold what was assigned to them, and nothing else
  changes them.
- `Writer.heapSize_of_steps`: the heap has the heads and texts of the steps.
-/

namespace FlatTree

namespace Writer

/-- A step of a writer. -/
inductive Step where
  | scalar (value : Scalar)
  | start (head : String)
  | finish

/-- Takes a step. -/
def Step.run (w : Writer) : Step → Option Writer
  | scalar value => w.scalar value
  | start head => w.start head
  | finish => w.finish

/-- What a step assigns: a word to the next free slot of the current expression. -/
def Step.assignment? (w : Writer) : Step → Option (Nat × UInt64)
  | scalar value => w.takeSlot.map fun taken => (taken.1, (w.raw.pushScalar value).2)
  | start _ => w.takeSlot.map fun taken => (taken.1, w.nextExpression.toUInt64)
  | finish => none

/-- What steps assign, in order. -/
def assignments (w : Writer) : List Step → List (Nat × UInt64)
  | [] => []
  | step :: rest =>
    (step.assignment? w).toList ++ match step.run w with
      | some next => assignments next rest
      | none => []

theorem assignments_cons {w next : Writer} {step : Step} (rest : List Step)
    (h : step.run w = some next) :
    w.assignments (step :: rest) = (step.assignment? w).toList ++ next.assignments rest := by
  rw [assignments, h]

/-- Slots after an assignment. -/
def assign (args : Array UInt64) (assignment : Nat × UInt64) : Array UInt64 :=
  args.setIfInBounds assignment.1 assignment.2

end Writer

namespace Tree

mutual

/-- The steps of writing a tree. -/
def steps : Tree → List Writer.Step
  | scalar value => [.scalar value]
  | node head children => .start head :: allSteps children ++ [.finish]

/-- The steps of writing trees. -/
def allSteps : List Tree → List Writer.Step
  | [] => []
  | tree :: rest => steps tree ++ allSteps rest

end

end Tree

namespace Writer

mutual

/-- Writing a tree is taking its steps. -/
theorem writeTree_eq_steps :
    ∀ (tree : Tree) (w : Writer), writeTree tree w = tree.steps.foldlM Step.run w
  | .scalar value, w => by
    rw [writeTree, Tree.steps, List.foldlM_cons]
    cases h : w.scalar value <;> simp [Step.run, h]
  | .node head children, w => by
    rw [writeTree, Tree.steps, List.cons_append, List.foldlM_cons]
    show _ = w.start head >>= _
    cases w.start head with
    | none => rfl
    | some w' =>
      show writeTrees children w' >>= finish = _
      rw [Option.bind_eq_bind, Option.bind_some, List.foldlM_append,
        writeTrees_eq_steps children w']
      congr 1
      funext w''
      show w''.finish = w''.finish >>= pure
      rw [bind_pure]

theorem writeTrees_eq_steps :
    ∀ (trees : List Tree) (w : Writer),
      writeTrees trees w = (Tree.allSteps trees).foldlM Step.run w
  | [], _ => rfl
  | tree :: rest, w => by
    rw [writeTrees, Tree.allSteps, List.foldlM_append, writeTree_eq_steps tree w]
    congr 1
    funext w'
    exact writeTrees_eq_steps rest w'

end

/-- Steps assign what the first of them assign, and then what the others do. -/
theorem assignments_append {w w' : Writer} {steps more : List Step}
    (h : steps.foldlM Step.run w = some w') :
    w.assignments (steps ++ more) = w.assignments steps ++ w'.assignments more := by
  induction steps generalizing w with
  | nil =>
    cases h
    rfl
  | cons step rest ih =>
    rw [List.foldlM_cons] at h
    obtain ⟨next, hnext, h⟩ := Option.bind_eq_some_iff.mp h
    rw [List.cons_append, assignments_cons _ hnext, assignments_cons _ hnext, List.append_assoc]
    exact congrArg _ (ih h)

/-! ## What a step assigns -/

/-- Ending a stretch changes tags only. -/
theorem raw_of_closeRun {w next : Writer} {stop : Nat} (h : w.closeRun stop = some next) :
    ∃ tags, next.raw = { w.raw with tags } := by
  rw [closeRun] at h
  split at h
  · cases h
    exact ⟨_, rfl⟩
  · split at h
    · obtain ⟨tag, -, h⟩ := Option.bind_eq_some_iff.mp h
      split at h
      · cases h
        exact ⟨_, rfl⟩
      · cases h
    · cases h

theorem raw_of_fill {w next : Writer} {slot : Nat} {word tag : UInt64}
    (h : w.fill slot word tag = some next) :
    slot < w.raw.args.size ∧
      ∃ tags, next.raw = { w.raw with args := w.raw.args.setIfInBounds slot word, tags } := by
  rw [fill] at h
  split at h
  · next hslot =>
    cases h
    exact ⟨hslot.1, _, rfl⟩
  · cases h

/-- Taking a slot reads the records only, and changes no region. -/
theorem raw_of_takeSlot {w next : Writer} {slot : Nat} (h : w.takeSlot = some (slot, next)) :
    next.raw = w.raw := by
  obtain ⟨record, -, h⟩ := Option.bind_eq_some_iff.mp h
  cases h
  rfl

/-- Adding a scalar assigns its word, and brings its text to the heap. -/
theorem raw_of_scalar {w next : Writer} {value : Scalar} (h : w.scalar value = some next) :
    ∃ assignment tags, Step.assignment? w (.scalar value) = some assignment ∧
      assignment.1 < w.raw.args.size ∧
      next.raw =
        { (w.raw.pushScalar value).1 with args := assign w.raw.args assignment, tags } := by
  rw [Step.assignment?, takeSlot]
  obtain ⟨more, word, hpush, -⟩ := w.raw.pushScalar_spec value
  rw [scalar, hpush] at h
  obtain ⟨⟨slot, taken⟩, htake, h⟩ := Option.bind_eq_some_iff.mp h
  obtain ⟨filled, hfill, h⟩ := Option.bind_eq_some_iff.mp h
  obtain ⟨record, hrecord, hslot⟩ := Option.bind_eq_some_iff.mp htake
  have hrecord' : w.raw.exprs[w.current.expression]? = some record := hrecord
  have hslot' : record.start.toNat + w.current.written = slot :=
    congrArg Prod.fst (Option.some.inj hslot)
  obtain ⟨hlt, tags, hraw⟩ := raw_of_fill hfill
  rw [raw_of_takeSlot htake] at hlt hraw
  rw [hpush, hrecord']
  refine ⟨(record.start.toNat + w.current.written, word), ?_⟩
  rw [hslot']
  suffices hnext : ∃ tags, next.raw = { filled.raw with tags } by
    obtain ⟨tags, hnext⟩ := hnext
    rw [hraw] at hnext
    exact ⟨tags, by rw [← hslot']; rfl, hlt, hnext⟩
  -- What follows ends a stretch or goes on with one.
  split at h
  · cases h
    exact ⟨_, rfl⟩
  · split at h
    · cases h
    · obtain ⟨before, -, h⟩ := Option.bind_eq_some_iff.mp h
      dsimp only at h
      split at h
      · cases h
        exact ⟨_, rfl⟩
      · obtain ⟨closed, hclose, h⟩ := Option.bind_eq_some_iff.mp h
        obtain ⟨tags, hclosed⟩ := raw_of_closeRun hclose
        cases h
        exact ⟨tags, hclosed⟩

/-- Starting an expression assigns its number, and brings its head to the heap. -/
theorem raw_of_start {w next : Writer} {head : String} (h : w.start head = some next) :
    ∃ assignment tags exprs, Step.assignment? w (.start head) = some assignment ∧
      assignment.1 < w.raw.args.size ∧
      next.raw = { w.raw.pushText head with
        args := assign w.raw.args assignment, tags, exprs } := by
  obtain ⟨⟨slot, taken⟩, htake, h⟩ := Option.bind_eq_some_iff.mp h
  obtain ⟨filled, hfill, h⟩ := Option.bind_eq_some_iff.mp h
  obtain ⟨closed, hclose, h⟩ := Option.bind_eq_some_iff.mp h
  obtain ⟨cursor, -, h⟩ := Option.bind_eq_some_iff.mp h
  obtain ⟨hlt, tags, hraw⟩ := raw_of_fill hfill
  obtain ⟨tags', hclosed⟩ := raw_of_closeRun hclose
  rw [hraw, raw_of_takeSlot htake] at hclosed
  rw [raw_of_takeSlot htake] at hlt
  rw [Step.assignment?, htake]
  split at h
  · cases h
    exact ⟨_, _, _, rfl, hlt, by rw [RawBuffer.pushText, hclosed]; rfl⟩
  · cases h

/-- Ending an expression assigns nothing. -/
theorem raw_of_finish {w next : Writer} (h : w.finish = some next) :
    ∃ tags exprs, next.raw = { w.raw with tags, exprs } := by
  obtain ⟨record, -, h⟩ := Option.bind_eq_some_iff.mp h
  obtain ⟨closed, hclose, h⟩ := Option.bind_eq_some_iff.mp h
  obtain ⟨tags, hclosed⟩ := raw_of_closeRun hclose
  dsimp only at h
  split at h
  · cases h
  · split at h
    · cases h
      exact ⟨_, _, hclosed⟩
    · cases h

/-- **A step assigns one slot or none**: a scalar or the start of an expression changes
the next free slot of the current expression, and no step changes any other. -/
theorem Step.args_of_run {w next : Writer} {step : Step} (h : step.run w = some next) :
    next.raw.args = (step.assignment? w).toList.foldl assign w.raw.args ∧
      ∀ assignment ∈ step.assignment? w, assignment.1 < w.raw.args.size := by
  cases step with
  | scalar value =>
    obtain ⟨assignment, tags, hassign, hlt, hraw⟩ := raw_of_scalar h
    rw [hassign]
    exact ⟨congrArg RawBuffer.args hraw, fun other hother => Option.some.inj hother ▸ hlt⟩
  | start head =>
    obtain ⟨assignment, tags, exprs, hassign, hlt, hraw⟩ := raw_of_start h
    rw [hassign]
    exact ⟨congrArg RawBuffer.args hraw, fun other hother => Option.some.inj hother ▸ hlt⟩
  | finish =>
    obtain ⟨tags, exprs, hraw⟩ := raw_of_finish h
    exact ⟨by rw [hraw]; rfl, fun _ hother => by cases hother⟩

/-- **The slots hold what was assigned to them**, step by step, and all of them are
there. -/
theorem args_of_steps {w last : Writer} {steps : List Step}
    (h : steps.foldlM Step.run w = some last) :
    last.raw.args = (w.assignments steps).foldl assign w.raw.args ∧
      ∀ assignment ∈ w.assignments steps, assignment.1 < w.raw.args.size := by
  induction steps generalizing w with
  | nil =>
    cases h
    exact ⟨rfl, fun _ hmem => by cases hmem⟩
  | cons step rest ih =>
    rw [List.foldlM_cons] at h
    obtain ⟨next, hnext, h⟩ := Option.bind_eq_some_iff.mp h
    obtain ⟨hargs, hlt⟩ := Step.args_of_run hnext
    obtain ⟨hlast, hrest⟩ := ih h
    have hsize : next.raw.args.size = w.raw.args.size := by
      rw [hargs]
      cases step.assignment? w with
      | none => rfl
      | some assignment => exact Array.size_setIfInBounds
    rw [assignments_cons _ hnext, List.foldl_append, ← hargs]
    refine ⟨hlast, fun assignment hmem => ?_⟩
    rcases List.mem_append.mp hmem with hmem | hmem
    · exact hlt assignment (Option.mem_toList.mp hmem)
    · exact hsize ▸ hrest assignment hmem

theorem size_foldl_assign (assignments : List (Nat × UInt64)) (args : Array UInt64) :
    (assignments.foldl assign args).size = args.size := by
  induction assignments generalizing args with
  | nil => rfl
  | cons assignment rest ih => exact (ih _).trans Array.size_setIfInBounds

/-- No slots are added. -/
theorem size_args_of_steps {w last : Writer} {steps : List Step}
    (h : steps.foldlM Step.run w = some last) : last.raw.args.size = w.raw.args.size := by
  rw [(args_of_steps h).1, size_foldl_assign]

/-! ## What a step brings to the heap -/

/-- The size of the text that a step brings to the heap, with the byte that ends it. -/
def Step.heapSize : Step → Nat
  | scalar (.string text) => (RawBuffer.textEntry text).size
  | scalar (.symbol name) => (RawBuffer.textEntry name).size
  | scalar _ => 0
  | start head => (RawBuffer.textEntry head).size
  | finish => 0

theorem Step.heapSize_of_run {w next : Writer} {step : Step} (h : step.run w = some next) :
    next.raw.strings.size = w.raw.strings.size + step.heapSize := by
  cases step with
  | scalar value =>
    obtain ⟨assignment, tags, -, -, hraw⟩ := raw_of_scalar h
    rw [hraw]
    cases value with
    | string text => exact ByteArray.size_append
    | symbol name => exact ByteArray.size_append
    | _ => rfl
  | start head =>
    obtain ⟨assignment, tags, exprs, -, -, hraw⟩ := raw_of_start h
    rw [hraw]
    exact ByteArray.size_append
  | finish =>
    obtain ⟨tags, exprs, hraw⟩ := raw_of_finish h
    rw [hraw]
    rfl

/-- The heap grows by the texts of the steps, and by nothing else. -/
theorem heapSize_of_steps {w last : Writer} {steps : List Step}
    (h : steps.foldlM Step.run w = some last) :
    last.raw.strings.size = w.raw.strings.size + (steps.map Step.heapSize).sum := by
  induction steps generalizing w with
  | nil =>
    cases h
    rfl
  | cons step rest ih =>
    rw [List.foldlM_cons] at h
    obtain ⟨next, hnext, h⟩ := Option.bind_eq_some_iff.mp h
    rw [ih h, Step.heapSize_of_run hnext, List.map_cons, List.sum_cons, Nat.add_assoc]

end Writer

end FlatTree
