import FlatTree.Text.Split

/-!
# Parts without a separator

Text that is joined from parts splits into these parts again, if the separator is in
none of them.

- `exists_splitOn_eq_cons`: there is always a first part.
- `splitOn_eq_singleton`: a text without the separator is one part.
- `splitOn_append_cons`: what stands before the first separator is the first part.
- `takeWhile_append_cons`: the same for texts that go on as long as a property holds.
-/

namespace FlatTree

variable {sep : Char}

theorem splitOn_cons_of_ne {c : Char} (hc : c ≠ sep) {cs part : List Char}
    {parts : List (List Char)} (h : splitOn sep cs = part :: parts) :
    splitOn sep (c :: cs) = (c :: part) :: parts := by
  rw [splitOn, if_neg hc, h]

/-- There is always a first part. -/
theorem exists_splitOn_eq_cons (sep : Char) :
    ∀ cs : List Char, ∃ part parts, splitOn sep cs = part :: parts
  | [] => ⟨[], [], rfl⟩
  | c :: rest => by
    obtain ⟨part, parts, hparts⟩ := exists_splitOn_eq_cons sep rest
    rw [splitOn, hparts]
    split
    · exact ⟨_, _, rfl⟩
    · exact ⟨_, _, rfl⟩

/-- A text without the separator is one part. -/
theorem splitOn_eq_singleton : ∀ {cs : List Char}, sep ∉ cs → splitOn sep cs = [cs]
  | [], _ => rfl
  | c :: cs, h => by
    rw [List.mem_cons, not_or] at h
    exact splitOn_cons_of_ne (Ne.symm h.1) (splitOn_eq_singleton h.2)

/-- What stands before the first separator is the first part. -/
theorem splitOn_append_cons (rest : List Char) :
    ∀ {part : List Char}, sep ∉ part →
      splitOn sep (part ++ sep :: rest) = part :: splitOn sep rest
  | [], _ => by rw [List.nil_append, splitOn, if_pos rfl]
  | c :: part, h => by
    rw [List.mem_cons, not_or] at h
    exact splitOn_cons_of_ne (Ne.symm h.1) (splitOn_append_cons rest h.2)

/-- A text may be cut at the first character that does not belong to it. -/
theorem takeWhile_append_cons {p : Char → Bool} {cs : List Char} (h : ∀ c ∈ cs, p c) {stop : Char}
    (hstop : p stop = false) (rest : List Char) :
    (cs ++ stop :: rest).takeWhile p = cs := by
  rw [List.takeWhile_append_of_pos h, List.takeWhile_cons_of_neg (by simp [hstop]),
    List.append_nil]

end FlatTree
