import FlatTree.Value.Entries

/-!
# Maps built from entries

Entries are added one by one, and the first entry of a key wins. As a map is
kept in key order, this is a statement about lookups: under each key the map
holds what the first entry of that key brought (`find?_ofFirst`).
-/

namespace FlatTree.Entries

variable {α : Type}

/-- The map of a list of entries. The first one of a key wins. -/
def ofFirst (entries : List (String × α)) : Entries α :=
  entries.foldl (fun map entry => insertFirst entry.1 entry.2 map) []

/-- The keys of a map stand in order, none twice. -/
def Sorted (map : Entries α) : Prop :=
  map.Pairwise fun a b => a.1 < b.1

/-- A key below all keys of a map is not in it. -/
theorem find?_eq_none_of_lt {key : String} :
    ∀ {map : Entries α}, (∀ e ∈ map, key < e.1) → find? key map = none
  | [], _ => rfl
  | (k, v) :: rest, h => by
    have hk : key < k := h (k, v) List.mem_cons_self
    rw [find?, if_neg (Std.ne_of_lt hk)]
    exact find?_eq_none_of_lt fun e he => h e (List.mem_cons_of_mem _ he)

/-- A key that has an entry is found, with the value of one of its entries. -/
theorem exists_find? {key : String} :
    ∀ {entries : List (String × α)}, key ∈ entries.map Prod.fst →
      ∃ value, find? key entries = some value ∧ (key, value) ∈ entries
  | (k, v) :: rest, h => by
    rw [find?]
    by_cases hkey : key = k
    · subst hkey
      exact ⟨v, if_pos rfl, List.mem_cons_self⟩
    · have hrest : key ∈ rest.map Prod.fst := (List.mem_cons.mp h).resolve_left hkey
      obtain ⟨value, hfind, hmem⟩ := exists_find? hrest
      exact ⟨value, (if_neg hkey).trans hfind, List.mem_cons_of_mem _ hmem⟩

/-- Adding an entry brings no key but its own. -/
theorem mem_insertFirst {key : String} {value : α} {e : String × α} :
    ∀ {map : Entries α}, e ∈ insertFirst key value map → e = (key, value) ∨ e ∈ map
  | [], h => by
    rw [insertFirst, List.mem_singleton] at h
    exact .inl h
  | (k, v) :: rest, h => by
    rw [insertFirst] at h
    split at h
    · exact List.mem_cons.mp h
    · split at h
      · exact .inr h
      · rcases List.mem_cons.mp h with rfl | h
        · exact .inr List.mem_cons_self
        · rcases mem_insertFirst h with rfl | h
          · exact .inl rfl
          · exact .inr (List.mem_cons_of_mem _ h)

theorem mem_foldl_insertFirst {e : String × α} :
    ∀ {entries : List (String × α)} {map : Entries α},
      e ∈ entries.foldl (fun m entry => insertFirst entry.1 entry.2 m) map → e ∈ entries ∨ e ∈ map
  | [], _, h => .inr h
  | _ :: rest, _, h => by
    rcases mem_foldl_insertFirst (show e ∈ rest.foldl _ _ from h) with hrest | hmap
    · exact .inl (List.mem_cons_of_mem _ hrest)
    · rcases mem_insertFirst hmap with rfl | hmap
      · exact .inl List.mem_cons_self
      · exact .inr hmap

/-- A map of entries has no others. -/
theorem mem_of_mem_ofFirst {entries : List (String × α)} {e : String × α}
    (h : e ∈ ofFirst entries) : e ∈ entries :=
  (mem_foldl_insertFirst h).resolve_right List.not_mem_nil

/-- Adding an entry keeps the order. -/
theorem Sorted.insertFirst {key : String} {value : α} :
    ∀ {map : Entries α}, Sorted map → Sorted (insertFirst key value map)
  | [], _ => List.pairwise_singleton _ _
  | (k, v) :: rest, h => by
    obtain ⟨hhead, hrest⟩ := List.pairwise_cons.mp h
    rw [Entries.insertFirst]
    split
    · next hlt =>
      refine List.pairwise_cons.mpr ⟨fun e he => ?_, h⟩
      rcases List.mem_cons.mp he with rfl | he
      · exact hlt
      · exact Std.lt_trans hlt (hhead e he)
    · next hge =>
      split
      · exact h
      · next hne =>
        refine List.pairwise_cons.mpr ⟨fun e he => ?_, Sorted.insertFirst hrest⟩
        rcases mem_insertFirst he with rfl | he
        · exact Std.lt_of_le_of_ne (Std.not_lt.mp hge) fun heq => hne heq.symm
        · exact hhead e he

/-- A key that is in the map keeps its value, and another key gets none. -/
theorem find?_insertFirst {key query : String} {value : α} :
    ∀ {map : Entries α}, Sorted map →
      find? query (insertFirst key value map) =
        (find? query map).or (if query = key then some value else none)
  | [], _ => rfl
  | (k, v) :: rest, h => by
    obtain ⟨hhead, hrest⟩ := List.pairwise_cons.mp h
    rw [insertFirst]
    split
    · next hlt =>
      rw [find?]
      by_cases hq : query = key
      · -- The new key comes before all others, so it was not in the map.
        have hnone : find? query ((k, v) :: rest) = none := by
          refine find?_eq_none_of_lt fun e he => ?_
          rw [hq]
          rcases List.mem_cons.mp he with rfl | he
          · exact hlt
          · exact Std.lt_trans hlt (hhead e he)
        rw [if_pos hq, hnone, if_pos hq]
        rfl
      · rw [if_neg hq, if_neg hq, Option.or_none]
    · split
      · next heq =>
        -- The key is there already and keeps its value.
        subst heq
        by_cases hq : query = key
        · rw [find?, if_pos hq]
          rfl
        · rw [if_neg hq, Option.or_none]
      · rw [find?, find?]
        by_cases hq : query = k
        · rw [if_pos hq, if_pos hq]
          rfl
        · rw [if_neg hq, if_neg hq]
          exact find?_insertFirst hrest

theorem find?_foldl_insertFirst {query : String} :
    ∀ {entries : List (String × α)} {map : Entries α}, Sorted map →
      find? query (entries.foldl (fun m e => insertFirst e.1 e.2 m) map) =
        (find? query map).or (find? query entries)
  | [], map, _ => by
    rw [find?, Option.or_none]
    rfl
  | (k, v) :: rest, map, h => by
    rw [List.foldl_cons, find?_foldl_insertFirst h.insertFirst, find?_insertFirst h,
      Option.or_assoc]
    congr 1
    rw [find?]
    by_cases hq : query = k
    · rw [if_pos hq, if_pos hq]
      rfl
    · rw [if_neg hq, if_neg hq]
      rfl

/-- Under each key stands the value of its first entry. -/
theorem find?_ofFirst (key : String) (entries : List (String × α)) :
    find? key (ofFirst entries) = find? key entries :=
  find?_foldl_insertFirst List.Pairwise.nil

/-! ## Distinct keys -/

/-- An entry of a new key is added in its place. -/
theorem perm_insertFirst {key : String} {value : α} :
    ∀ {map : Entries α}, (∀ e ∈ map, e.1 ≠ key) →
      (insertFirst key value map).Perm ((key, value) :: map)
  | [], _ => .refl _
  | (k, v) :: rest, h => by
    obtain ⟨hne, hrest⟩ := List.forall_mem_cons.mp h
    rw [insertFirst]
    split
    · exact .refl _
    · rw [if_neg (Ne.symm hne)]
      exact ((perm_insertFirst hrest).cons _).trans (.swap ..)

theorem perm_foldl_insertFirst :
    ∀ {entries : List (String × α)} {map : Entries α}, ((entries ++ map).map Prod.fst).Nodup →
      (entries.foldl (fun m e => insertFirst e.1 e.2 m) map).Perm (entries ++ map)
  | [], _, _ => .refl _
  | (k, v) :: rest, map, h => by
    obtain ⟨hfresh, -⟩ := List.nodup_cons.mp h
    have hne : ∀ e ∈ map, e.1 ≠ k := fun e he heq =>
      hfresh (List.mem_map.mpr ⟨e, List.mem_append_right _ he, heq⟩)
    have hinsert := @perm_insertFirst _ k v _ hne
    have hperm : (rest ++ insertFirst k v map).Perm ((k, v) :: rest ++ map) :=
      (hinsert.append_left rest).trans List.perm_middle
    exact (perm_foldl_insertFirst ((hperm.map Prod.fst).nodup_iff.mpr h)).trans hperm

/-- **A map of entries with distinct keys has just those entries.** -/
theorem perm_ofFirst {entries : List (String × α)} (h : (entries.map Prod.fst).Nodup) :
    (ofFirst entries).Perm entries := by
  have hnil : entries ++ ([] : Entries α) = entries := List.append_nil _
  have hperm := perm_foldl_insertFirst (hnil.symm ▸ h)
  rw [hnil] at hperm
  exact hperm

end FlatTree.Entries
