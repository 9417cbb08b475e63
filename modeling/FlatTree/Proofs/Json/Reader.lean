import FlatTree.Json.Reader

/-!
# What is read from a JSON text

A reader keeps its open containers, and every value in them has been read whole.
So what holds of a text that is read can be said container by container: each may
hold only what still fits below it, and it has no key twice.

- `Json.depth`: how deep containers nest in a document.
- `Json.All`: something holds of all parts of a document.
- `Json.KeysDistinct`: an object has no key twice.
- `Reader.Sound`: what a reader keeps true with each token.
- `Json.sound_of_read?`: documents that are read have it.
-/

namespace FlatTree

namespace Json

/-! ## Parts of a document -/

mutual

/-- How deep containers nest, the document itself included. -/
def depth : Json → Nat
  | array items => depthItems items + 1
  | object members => depthMembers members + 1
  | _ => 0

/-- How deep containers nest in one of some items. -/
def depthItems : List Json → Nat
  | [] => 0
  | item :: rest => max (depth item) (depthItems rest)

/-- How deep containers nest in one of some members. -/
def depthMembers : List (String × Json) → Nat
  | [] => 0
  | (_, member) :: rest => max (depth member) (depthMembers rest)

end

mutual

/-- Something holds of a document and of all documents in it. -/
def All (p : Json → Prop) : Json → Prop
  | array items => p (array items) ∧ AllItems p items
  | object members => p (object members) ∧ AllMembers p members
  | json => p json

/-- Something holds of items and of all documents in them. -/
def AllItems (p : Json → Prop) : List Json → Prop
  | [] => True
  | item :: rest => All p item ∧ AllItems p rest

/-- Something holds of the values of members and of all documents in them. -/
def AllMembers (p : Json → Prop) : List (String × Json) → Prop
  | [] => True
  | (_, member) :: rest => All p member ∧ AllMembers p rest

end

theorem depthItems_le {n : Nat} :
    ∀ {items : List Json}, depthItems items ≤ n ↔ ∀ item ∈ items, item.depth ≤ n
  | [] => by simp [depthItems]
  | item :: rest => by
    rw [depthItems, Nat.max_le, depthItems_le, List.forall_mem_cons]

theorem depthMembers_le {n : Nat} :
    ∀ {members : List (String × Json)},
      depthMembers members ≤ n ↔ ∀ member ∈ members, member.2.depth ≤ n
  | [] => by simp [depthMembers]
  | (key, value) :: rest => by
    rw [depthMembers, Nat.max_le, depthMembers_le, List.forall_mem_cons]

theorem allItems_iff {p : Json → Prop} :
    ∀ {items : List Json}, AllItems p items ↔ ∀ item ∈ items, item.All p
  | [] => by simp [AllItems]
  | item :: rest => by
    rw [AllItems, allItems_iff, List.forall_mem_cons]

theorem allMembers_iff {p : Json → Prop} :
    ∀ {members : List (String × Json)}, AllMembers p members ↔ ∀ member ∈ members, member.2.All p
  | [] => by simp [AllMembers]
  | (key, value) :: rest => by
    rw [AllMembers, allMembers_iff, List.forall_mem_cons]

/-- An object has no key twice. -/
def KeysDistinct : Json → Prop
  | object members => (members.map Prod.fst).Nodup
  | _ => True

/-! ## Setting a member -/

variable {key : String} {json : Json} {members : List (String × Json)}

/-- A member that is set is the new one, or was there before. -/
theorem mem_assign {member : String × Json} :
    ∀ {members : List (String × Json)}, member ∈ assign key json members →
      member = (key, json) ∨ member ∈ members
  | [], h => .inl (List.mem_singleton.mp h)
  | (k, v) :: rest, h => by
    rw [assign] at h
    split at h
    · rcases List.mem_cons.mp h with rfl | h
      · exact .inl rfl
      · exact .inr (List.mem_cons_of_mem _ h)
    · rcases List.mem_cons.mp h with rfl | h
      · exact .inr List.mem_cons_self
      · exact (mem_assign h).imp_right (List.mem_cons_of_mem _)

/-- Setting a member brings no key twice. -/
theorem nodup_assign :
    ∀ {members : List (String × Json)}, (members.map Prod.fst).Nodup →
      ((assign key json members).map Prod.fst).Nodup
  | [], _ => List.pairwise_singleton _ _
  | (k, v) :: rest, h => by
    obtain ⟨hfresh, hrest⟩ := List.nodup_cons.mp h
    rw [assign]
    split
    · next heq =>
      subst heq
      exact h
    · next hne =>
      refine List.nodup_cons.mpr ⟨fun hmem => ?_, nodup_assign hrest⟩
      obtain ⟨member, hmember, hkey⟩ := List.mem_map.mp hmem
      rcases mem_assign hmember with rfl | hold
      · exact hne hkey.symm
      · exact hfresh (List.mem_map.mpr ⟨member, hold, hkey⟩)

/-- What holds of a value below so many open containers: it is not too deep, and
no object in it has a key twice. -/
structure SoundBelow (levels : Nat) (json : Json) : Prop where
  depth : json.depth + levels ≤ Reader.maxDepth
  distinct : json.All KeysDistinct

end Json

/-! ## The reader -/

/-- The values in an open container. -/
def OpenContainer.values : OpenContainer → List Json
  | array items => items
  | object members _ => members.map Prod.snd

/-- The keys in an open container. -/
def OpenContainer.keys : OpenContainer → List String
  | array _ => []
  | object members _ => members.map Prod.fst

namespace Reader

/-- All that open containers hold fits below them. -/
def SoundContainers : List OpenContainer → Prop
  | [] => True
  | container :: rest =>
    rest.length < maxDepth ∧ container.keys.Nodup ∧
      (∀ value ∈ container.values, value.SoundBelow (rest.length + 1)) ∧ SoundContainers rest

/-- What a reader keeps true with each token. -/
def Sound : Reader → Prop
  | value containers => SoundContainers containers
  | firstItem containers => containers.length < maxDepth ∧ SoundContainers containers
  | afterItem items containers => SoundContainers (.array items :: containers)
  | key members _ containers => SoundContainers (.object members "" :: containers)
  | colon members name containers => SoundContainers (.object members name :: containers)
  | afterMember members containers => SoundContainers (.object members "" :: containers)
  | finished document => document.SoundBelow 0

variable {json : Json} {containers : List OpenContainer}

theorem length_le_of_sound : ∀ {containers : List OpenContainer}, SoundContainers containers →
    containers.length ≤ maxDepth
  | [], _ => Nat.zero_le _
  | _ :: _, h => h.1

/-- An array is opened. -/
theorem sound_openArray (hlength : containers.length < maxDepth) (h : SoundContainers containers) :
    SoundContainers (.array [] :: containers) :=
  ⟨hlength, List.nodup_nil, nofun, h⟩

/-- A value that fits is handed over. -/
theorem sound_accept (hjson : json.SoundBelow containers.length)
    (h : SoundContainers containers) : (accept json containers).Sound := by
  match containers, h with
  | [], _ => exact hjson
  | .array items :: rest, ⟨hlength, hkeys, hvalues, hrest⟩ =>
    exact ⟨hlength, hkeys, List.forall_mem_cons.mpr ⟨hjson, hvalues⟩, hrest⟩
  | .object members name :: rest, ⟨hlength, hkeys, hvalues, hrest⟩ =>
    refine ⟨hlength, Json.nodup_assign hkeys, fun value hvalue => ?_, hrest⟩
    obtain ⟨member, hmember, rfl⟩ := List.mem_map.mp hvalue
    rcases Json.mem_assign hmember with rfl | hold
    · exact hjson
    · exact hvalues _ (List.mem_map_of_mem hold)

/-- A value without a container inside fits anywhere. -/
theorem sound_accept_scalar (hdepth : json.depth = 0) (hdistinct : json.All Json.KeysDistinct)
    (h : SoundContainers containers) : (accept json containers).Sound :=
  sound_accept ⟨by rw [hdepth, Nat.zero_add]; exact length_le_of_sound h, hdistinct⟩ h

/-- A value is started where one may stand. -/
theorem sound_start {token : Token} {r : Reader} (h : SoundContainers containers)
    (hstart : start containers token = some r) : r.Sound := by
  cases token with
  | null | bool | number | string =>
    cases hstart
    exact sound_accept_scalar rfl trivial h
  | openArray =>
    rw [start] at hstart
    split at hstart
    · next hlength =>
      cases hstart
      exact ⟨hlength, h⟩
    · cases hstart
  | openObject =>
    rw [start] at hstart
    split at hstart
    · next hlength =>
      cases hstart
      exact ⟨hlength, List.nodup_nil, nofun, h⟩
    · cases hstart
  | closeArray | closeObject | colon | comma => cases hstart

/-- An array is complete. -/
theorem sound_array {items : List Json} (h : SoundContainers (.array items :: containers)) :
    (Json.array items.reverse).SoundBelow containers.length := by
  obtain ⟨hlength, -, hvalues, -⟩ := h
  constructor
  · have hdepth : Json.depthItems items.reverse ≤ maxDepth - (containers.length + 1) := by
      refine Json.depthItems_le.mpr fun item hitem => ?_
      have := (hvalues item (List.mem_reverse.mp hitem)).depth
      omega
    rw [Json.depth]
    omega
  · refine ⟨trivial, Json.allItems_iff.mpr fun item hitem => ?_⟩
    exact (hvalues item (List.mem_reverse.mp hitem)).distinct

/-- An object is complete. -/
theorem sound_object {members : List (String × Json)} {name : String}
    (h : SoundContainers (.object members name :: containers)) :
    (Json.object members).SoundBelow containers.length := by
  obtain ⟨hlength, hkeys, hvalues, -⟩ := h
  constructor
  · have hdepth : Json.depthMembers members ≤ maxDepth - (containers.length + 1) := by
      refine Json.depthMembers_le.mpr fun member hmember => ?_
      have := (hvalues _ (List.mem_map_of_mem hmember)).depth
      omega
    rw [Json.depth]
    omega
  · refine ⟨hkeys, Json.allMembers_iff.mpr fun member hmember => ?_⟩
    exact (hvalues _ (List.mem_map_of_mem hmember)).distinct

/-- **Each token keeps a reader sound.** -/
theorem sound_step {r next : Reader} {token : Token} (h : r.Sound)
    (hstep : r.step token = some next) : next.Sound := by
  rw [step.eq_def] at hstep
  split at hstep
  · exact sound_start h hstep
  · cases hstep
    exact sound_accept (sound_array (sound_openArray h.1 h.2)) h.2
  · exact sound_start (sound_openArray h.1 h.2) hstep
  · cases hstep
    exact h
  · cases hstep
    exact sound_accept (sound_array h) h.2.2.2
  · cases hstep
    exact h
  · cases hstep
    exact sound_accept (sound_object h) h.2.2.2
  · cases hstep
    exact h
  · cases hstep
    exact h
  · cases hstep
    exact sound_accept (sound_object h) h.2.2.2
  · cases hstep

/-- Tokens keep it sound one after another. -/
theorem sound_foldlM :
    ∀ {tokens : List Token} {r last : Reader}, r.Sound → tokens.foldlM step r = some last →
      last.Sound
  | [], _, _, h, hlast => by
    cases hlast
    exact h
  | _ :: _, _, _, h, hlast => by
    obtain ⟨next, hnext, hlast⟩ := Option.bind_eq_some_iff.mp hlast
    exact sound_foldlM (sound_step h hnext) hlast

end Reader

/-- **What is read from a text nests no deeper than the reader allows, and has no
key of an object twice.** -/
theorem Json.sound_of_read? {text : String} {json : Json} (h : Json.read? text = some json) :
    json.depth ≤ Reader.maxDepth ∧ json.All Json.KeysDistinct := by
  rw [Json.read?] at h
  obtain ⟨tokens, -, h⟩ := Option.bind_eq_some_iff.mp h
  obtain ⟨last, hlast, h⟩ := Option.bind_eq_some_iff.mp h
  have hsound := Reader.sound_foldlM (r := .value []) trivial hlast
  split at h
  · cases h
    exact ⟨hsound.depth, hsound.distinct⟩
  · cases h

end FlatTree
