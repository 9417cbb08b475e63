import FlatTree.Proofs.View.Stack

/-!
# The loop halts

Opening an expression brings a fresh cursor, with new slots to go through, and in a cyclic
buffer an expression may be opened inside itself. So the slots that are left do not get
fewer with each step. What does is `Stack.weight`, which counts a slot for more the less
deep it is: for more than all the slots that can be met below it, down to the nesting limit.

- `Stack.Advances`: what a step does that does not finish the loop.
- `Stack.not_endless`: no steps without end, from any state.
- `Stack.exists_steps`: the loop finishes within its weight.
- `Stack.weight_start_lt`: the weight at the start, in numbers.
- `View.progress_halts`: the same for a view.
-/

namespace FlatTree

namespace Stack

variable {r : Regions} {s s' : Stack}

/-- What a step does that does not finish the loop: it consumes a slot of the expression on
top, which may open another on top of that, one level deeper and within the limit; or it
closes the expression on top, of which no slot is left. -/
inductive Advances (r : Regions) (s s' : Stack) : Prop where
  | scalar {value : Scalar} {cursor : Cursor} :
    s.top.cursor.next r = some (.ok (.scalar value), cursor) →
    s'.top = { s.top with cursor, node := s'.top.node } → s'.below = s.below →
    Advances r s s'
  | expression {child : Nat} {cursor : Cursor} :
    s.top.cursor.next r = some (.ok (.expression child), cursor) →
    s'.top.index = child → s'.top.depth = s.top.depth + 1 → s'.top.depth ≤ defaultMaxDepth →
    s'.top.cursor = Cursor.start r child none → s'.below = { s.top with cursor } :: s.below →
    Advances r s s'
  | closed {parent : Frame} :
    s.top.cursor.next r = none → s.below = parent :: s'.below →
    s'.top = { parent with node := s'.top.node } →
    Advances r s s'

/-- Every step that does not finish the loop does one of the two. -/
theorem advances_of_step (h : s.step r = .running s') : Advances r s s' := by
  have hspec := stepsTo_step r s
  rw [h] at hspec
  cases hspec with
  | opens hnext hstart =>
    obtain ⟨hdepth, head, -, rfl⟩ := Frame.start_eq_ok_iff.mp hstart
    exact .expression hnext rfl rfl hdepth rfl rfl
  | adds hnext hpush => exact .scalar hnext (Frame.eq_of_pushScalar hpush) rfl
  | folds hnext hbelow haccept => exact .closed hnext hbelow (Frame.eq_of_accept haccept)

/-! ## No steps without end -/

/-- Each step is a step down. -/
theorem wellFounded_step (r : Regions) :
    WellFounded fun s' s : Stack => s.step r = .running s' :=
  Subrelation.wf (fun h => weight_lt_of_step r h) (measure (weight r)).wf

theorem not_endless (r : Regions) :
    ¬ ∃ states : Nat → Stack, ∀ n, (states n).step r = .running (states (n + 1)) := by
  rintro ⟨states, hstates⟩
  have hnone := wellFounded_iff_isEmpty_descending_chain.mp (wellFounded_step r)
  exact hnone.elim ⟨states, hstates⟩

/-! ## How many steps -/

theorem weight_pos (r : Regions) (s : Stack) : 0 < s.weight r := by
  have htop : 0 < frameWeight r s.top :=
    Nat.mul_pos (Nat.succ_pos _) (slotWeight_pos r s.top.depth)
  unfold weight
  omega

/-- The loop finishes after at most as many steps as it weighs. -/
theorem exists_steps (r : Regions) (s : Stack) :
    ∃ n ≤ s.weight r, s.steps r n = .finished (run r s) := by
  rw [run_eq_step]
  cases hstep : s.step r with
  | finished outcome =>
    refine ⟨1, s.weight_pos r, ?_⟩
    simp [steps, hstep]
  | running s' =>
    have hless := weight_lt_of_step r hstep
    obtain ⟨n, hn, hsteps⟩ := exists_steps r s'
    refine ⟨n + 1, by omega, ?_⟩
    simp [steps, hstep, hsteps]
termination_by s.weight r

theorem levelWeight_eq (r : Regions) (levels : Nat) :
    levelWeight r levels = (r.argCount + 3) ^ levels := by
  induction levels with
  | zero => rfl
  | succ levels ih => rw [levelWeight, ih, Nat.pow_succ, Nat.mul_comm]

/-- What the loop weighs with nothing but the root open. -/
theorem weight_start_lt {index : Nat} {root : Frame}
    (h : Frame.start r index 0 false = .ok root) :
    weight r ⟨root, []⟩ < (r.argCount + 3) ^ (defaultMaxDepth + 2) := by
  obtain ⟨-, head, -, rfl⟩ := Frame.start_eq_ok_iff.mp h
  have hslots := Cursor.remaining_start_le r index none
  have hpos := levelWeight_pos r (defaultMaxDepth + 1)
  calc weight r ⟨_, []⟩
      = ((Cursor.start r index none).remaining + 1) * levelWeight r (defaultMaxDepth + 1) := by
        simp only [weight, frameWeight, framesWeight, slotWeight, Nat.add_zero, Nat.sub_zero]
    _ < (r.argCount + 3) * levelWeight r (defaultMaxDepth + 1) :=
        Nat.mul_lt_mul_of_pos_right (by omega) hpos
    _ = (r.argCount + 3) ^ (defaultMaxDepth + 2) := by
        rw [levelWeight_eq, ← Nat.pow_succ']

end Stack

namespace View

/-- **The loop halts** on every buffer, however its expressions refer to each other. There are
no steps without end; each step that goes on consumes one slot of the expression on top, and
may open another one level deeper and within the limit, or closes the expression on top; and
after less than so many steps the loop has returned a value or an error. -/
theorem progress_halts (v : View) :
    (¬ ∃ states : Nat → Stack, ∀ n, (states n).step v.regions = .running (states (n + 1))) ∧
      (∀ s s' : Stack, s.step v.regions = .running s' → s.Advances v.regions s') ∧
      ∃ n < (v.regions.argCount + 3) ^ (defaultMaxDepth + 2),
        v.progress n = .finished v.materialize := by
  refine ⟨Stack.not_endless v.regions, fun s s' => Stack.advances_of_step, ?_⟩
  unfold progress materialize
  cases hstart : Frame.start v.regions v.index 0 false with
  | error e => exact ⟨0, Nat.pow_pos (Nat.succ_pos _), rfl⟩
  | ok root =>
    obtain ⟨n, hn, hsteps⟩ := Stack.exists_steps v.regions ⟨root, []⟩
    exact ⟨n, Nat.lt_of_le_of_lt hn (Stack.weight_start_lt hstart), hsteps⟩

/-- Two expressions, each of which has the other one twice among its arguments. -/
def sharedLoop : RawBuffer where
  args := #[0, 1, 1, 0, 0]
  tags := #[5, 5, 5, 5, 5]
  exprs := #[⟨0, 1, 3⟩, ⟨0, 3, 5⟩]
  strings := RawBuffer.textEntry "f"

/-- After two steps the first of them is open inside itself, and still the loop halts. -/
theorem progress_halts_sharedLoop :
    (∃ s s' : Stack, s.step sharedLoop.regions = .running s' ∧
      s'.frames.map (·.index) = [0, 1, 0] ∧ s.Advances sharedLoop.regions s') ∧
    ∃ n, (View.mk sharedLoop.regions 0).progress n =
      .finished (View.mk sharedLoop.regions 0).materialize := by
  have hinside : (((View.mk sharedLoop.regions 0).progress 1).state?.bind fun s =>
      (s.step sharedLoop.regions).state?).map (fun s' => s'.frames.map (·.index)) =
        some [0, 1, 0] := by decide +kernel
  obtain ⟨-, hadvances, n, -, hprogress⟩ := progress_halts ⟨sharedLoop.regions, 0⟩
  obtain ⟨s', hfound, hindices⟩ := Option.map_eq_some_iff.mp hinside
  obtain ⟨s, -, hs'⟩ := Option.bind_eq_some_iff.mp hfound
  have hstep := Progress.state?_eq_some.mp hs'
  exact ⟨⟨s, s', hstep, hindices, hadvances s s' hstep⟩, n, hprogress⟩

end View

end FlatTree
