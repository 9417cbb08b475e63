import Mathlib.Data.List.Forall2
import FlatTree.Decode.Error

/-!
# Outcomes of chains

Decoding is a chain of reads, each of which may fail. To reason about a chain
it is taken apart link by link: a bind succeeds exactly when both of its parts
do, and fails where the first of them does. Neither lifting a layout read nor
blaming an expression changes which chains succeed, and blaming names the
innermost expression only. What all failures of a chain have in common is shown
link by link too (`Decoded.FailsWith`).
-/

namespace FlatTree

section Bind

variable {ε α β : Type}

/-- A chain succeeds exactly when its first link and the rest do. -/
theorem bind_eq_ok {d : Except ε α} {f : α → Except ε β} {b : β} :
    d >>= f = .ok b ↔ ∃ a, d = .ok a ∧ f a = .ok b := by
  cases d with
  | ok a =>
    constructor
    · intro h
      exact ⟨a, rfl, h⟩
    · rintro ⟨a', ha, h⟩
      cases ha
      exact h
  | error e =>
    constructor
    · intro h
      cases h
    · rintro ⟨a, ha, -⟩
      cases ha

/-- A chain fails at its first link or after it. -/
theorem bind_eq_error {d : Except ε α} {f : α → Except ε β} {e : ε} :
    d >>= f = .error e ↔ d = .error e ∨ ∃ a, d = .ok a ∧ f a = .error e := by
  cases d with
  | ok a =>
    constructor
    · intro h
      exact .inr ⟨a, rfl, h⟩
    · rintro (h | ⟨a', ha, h⟩)
      · cases h
      · cases ha
        exact h
  | error e' =>
    constructor
    · intro h
      cases h
      exact .inl rfl
    · rintro (h | ⟨a, ha, -⟩)
      · cases h
        rfl
      · cases ha

@[simp] theorem ok_bind {a : α} {f : α → Except ε β} : (Except.ok a >>= f) = f a := rfl

@[simp] theorem error_bind {e : ε} {f : α → Except ε β} :
    (Except.error e >>= f) = Except.error e := rfl

@[simp] theorem pure_eq_ok {a b : α} : (pure a : Except ε α) = .ok b ↔ a = b := by
  constructor
  · intro h
    cases h
    rfl
  · rintro rfl
    rfl

/-- A last link that only wraps what came before cannot fail. -/
theorem bind_pure_eq_ok {d : Except ε α} {f : α → β} {b : β} :
    (d >>= fun a => pure (f a)) = .ok b ↔ ∃ a, d = .ok a ∧ b = f a := by
  rw [bind_eq_ok]
  exact exists_congr fun a => and_congr_right fun _ => pure_eq_ok.trans eq_comm

/-- Such a link adds no failure. -/
theorem bind_pure_eq_error {d : Except ε α} {f : α → β} {e : ε} :
    (d >>= fun a => pure (f a)) = .error e ↔ d = .error e := by
  cases d with
  | ok a =>
    constructor <;>
      · intro h
        cases h
  | error e' =>
    constructor <;>
      · intro h
        cases h
        rfl

/-- The same, written as a map. -/
theorem map_eq_ok {d : Except ε α} {f : α → β} {b : β} :
    d.map f = .ok b ↔ ∃ a, d = .ok a ∧ b = f a := by
  cases d with
  | ok a => exact bind_pure_eq_ok (d := .ok a)
  | error e => exact bind_pure_eq_ok (d := .error e)

theorem map_eq_error {d : Except ε α} {f : α → β} {e : ε} :
    d.map f = .error e ↔ d = .error e := by
  cases d with
  | ok a => exact bind_pure_eq_error (d := .ok a) (f := f)
  | error e' => exact bind_pure_eq_error (d := .error e') (f := f)

end Bind

/-! ## Blame -/

namespace DecodeError

variable {e : DecodeError} {inner : Nat}

/-- Blaming takes effect where nothing is blamed yet. -/
theorem blame_of_none (h : e.blamed = none) (index : Nat) :
    e.blame index = ⟨e.cause, some index⟩ := by
  obtain ⟨cause, blamed⟩ := e
  cases h
  rfl

theorem blame_of_some (h : e.blamed = some inner) (index : Nat) : e.blame index = e := by
  obtain ⟨cause, blamed⟩ := e
  cases h
  rfl

/-- What failed is not changed by who is blamed for it. -/
theorem cause_blame (index : Nat) (e : DecodeError) : (e.blame index).cause = e.cause := by
  obtain ⟨cause, blamed⟩ := e
  cases blamed <;> rfl

/-- Only the innermost expression is blamed. -/
theorem blame_blame (index inner : Nat) (e : DecodeError) :
    (e.blame inner).blame index = e.blame inner := by
  cases hblamed : e.blamed with
  | none => rw [blame_of_none hblamed, blame_of_some rfl]
  | some i => rw [blame_of_some hblamed, blame_of_some hblamed]

end DecodeError

namespace Decoded

variable {α β : Type}

@[simp] theorem lift_eq_ok {read : Except Fault α} {a : α} :
    lift read = .ok a ↔ read = .ok a := by
  cases read <;> simp [lift]

@[simp] theorem blaming_eq_ok {index : Nat} {d : Decoded α} {a : α} :
    blaming index d = .ok a ↔ d = .ok a := by
  cases d <;> simp [blaming]

theorem lift_eq_error {read : Except Fault α} {e : DecodeError} :
    lift read = .error e ↔ ∃ fault, read = .error fault ∧ e = .ofFault fault := by
  cases read <;> simp [lift, eq_comm]

theorem blaming_eq_error {index : Nat} {d : Decoded α} {e : DecodeError} :
    blaming index d = .error e ↔ ∃ inner, d = .error inner ∧ e = inner.blame index := by
  cases d <;> simp [blaming, eq_comm]

/-- The first failure is blamed, wherever in a chain it is. -/
theorem blaming_bind (index : Nat) (d : Decoded α) (f : α → Decoded β) :
    blaming index (d >>= f) = blaming index d >>= fun a => blaming index (f a) := by
  cases d <;> rfl

theorem blaming_blaming (index inner : Nat) (d : Decoded α) :
    blaming index (blaming inner d) = blaming inner d := by
  cases d with
  | ok a => rfl
  | error e => exact congrArg Except.error (e.blame_blame index inner)

end Decoded

/-! ## Reading a list of things -/

section ReadAll

variable {ε α β : Type}

/-- Lists of successes are equal if they are of the same things. -/
theorem map_ok_inj {as bs : List α} :
    (as.map .ok : List (Except ε α)) = bs.map .ok ↔ as = bs :=
  List.map_inj_right fun _ _ => Except.ok.inj

/-- Reading a list succeeds exactly when every read does, in the same order. -/
theorem mapM_eq_ok {f : α → Except ε β} :
    ∀ {as : List α} {bs : List β},
      as.mapM f = .ok bs ↔ List.Forall₂ (fun a b => f a = .ok b) as bs
  | [], bs => by
    rw [List.mapM_nil, pure_eq_ok]
    constructor
    · rintro rfl
      exact .nil
    · intro h
      cases h
      rfl
  | a :: as, bs => by
    rw [List.mapM_cons, bind_eq_ok]
    constructor
    · rintro ⟨b, hb, h⟩
      obtain ⟨rest, hrest, h⟩ := bind_eq_ok.mp h
      rw [pure_eq_ok] at h
      subst h
      exact .cons hb (mapM_eq_ok.mp hrest)
    · intro h
      cases h with
      | cons hb hrest =>
        exact ⟨_, hb, bind_eq_ok.mpr ⟨_, mapM_eq_ok.mpr hrest, rfl⟩⟩

/-- Reading a list depends on the reads of its members. -/
theorem mapM_congr_mem {f g : α → Except ε β} :
    ∀ {as : List α}, (∀ a ∈ as, f a = g a) → as.mapM f = as.mapM g
  | [], _ => rfl
  | a :: as, h => by
    obtain ⟨ha, has⟩ := List.forall_mem_cons.mp h
    rw [List.mapM_cons, List.mapM_cons, ha, mapM_congr_mem has]

/-- Of lists that are related, each member of the first is related to one of the second. -/
theorem exists_of_forall₂_left {R : α → β → Prop} {a : α} :
    ∀ {as : List α} {bs : List β}, List.Forall₂ R as bs → a ∈ as → ∃ b ∈ bs, R a b
  | _, _, .cons h hrest, hmem => by
    rcases List.mem_cons.mp hmem with rfl | hmem
    · exact ⟨_, List.mem_cons_self, h⟩
    · obtain ⟨b, hb, hab⟩ := exists_of_forall₂_left hrest hmem
      exact ⟨b, List.mem_cons_of_mem _ hb, hab⟩

/-- What was read of a list was read off one of its members. -/
theorem exists_of_mem_mapM {f : α → Except ε β} {as : List α} {bs : List β}
    (h : as.mapM f = .ok bs) {b : β} (hb : b ∈ bs) : ∃ a ∈ as, f a = .ok b :=
  exists_of_forall₂_left (mapM_eq_ok.mp h).flip hb

/-- Every member of a list that was read was read. -/
theorem mem_of_mem_mapM {f : α → Except ε β} {as : List α} {bs : List β}
    (h : as.mapM f = .ok bs) {a : α} (ha : a ∈ as) : ∃ b ∈ bs, f a = .ok b :=
  exists_of_forall₂_left (mapM_eq_ok.mp h) ha

end ReadAll

/-! ## How chains fail -/

namespace Decoded

variable {α β : Type} {P : DecodeError → Prop}

/-- If this fails, then with such an error. -/
def FailsWith (d : Decoded α) (P : DecodeError → Prop) : Prop := ∀ e, d = .error e → P e

namespace FailsWith

theorem ok (a : α) : FailsWith (.ok a) P := by
  intro e h
  cases h

theorem error {e : DecodeError} (h : P e) : FailsWith (.error e : Decoded α) P := by
  intro e' he
  cases he
  exact h

theorem lift {read : Except Fault α} (h : ∀ fault, read = .error fault → P (.ofFault fault)) :
    (Decoded.lift read).FailsWith P := by
  intro e he
  obtain ⟨fault, hfault, rfl⟩ := lift_eq_error.mp he
  exact h fault hfault

/-- A chain fails like its first link, or like what comes after that. -/
theorem bind {d : Decoded α} {f : α → Decoded β} (h : d.FailsWith P)
    (hnext : ∀ a, d = .ok a → (f a).FailsWith P) : FailsWith (d >>= f) P := by
  intro e he
  rcases bind_eq_error.mp he with he | ⟨a, ha, he⟩
  · exact h e he
  · exact hnext a ha e he

theorem blaming {d : Decoded α} {index : Nat} (h : d.FailsWith fun e => P (e.blame index)) :
    (Decoded.blaming index d).FailsWith P := by
  intro e he
  obtain ⟨inner, hinner, rfl⟩ := blaming_eq_error.mp he
  exact h inner hinner

/-- A list is read until one of its members fails. -/
theorem mapM {f : α → Decoded β} :
    ∀ {as : List α}, (∀ a ∈ as, (f a).FailsWith P) → FailsWith (as.mapM f) P
  | [], _ => ok []
  | a :: as, h => by
    obtain ⟨hfirst, hrest⟩ := List.forall_mem_cons.mp h
    rw [List.mapM_cons]
    exact hfirst.bind fun b _ => (mapM hrest).bind fun bs _ => ok (b :: bs)

end FailsWith

end Decoded

/-- The first failure of a list is blamed. -/
theorem Decoded.blaming_mapM {α β : Type} (index : Nat) (f : α → Decoded β) :
    ∀ as : List α, blaming index (as.mapM f) = as.mapM fun a => blaming index (f a)
  | [] => rfl
  | a :: as => by
    rw [List.mapM_cons, List.mapM_cons, blaming_bind]
    congr 1
    funext b
    rw [blaming_bind, blaming_mapM index f as]
    rfl

end FlatTree
