import FlatTree.Proofs.Buffer.Slack
import FlatTree.Proofs.Build.BreadthFirst
import FlatTree.Proofs.Document.Partition
import FlatTree.Proofs.Document.RoundTrip
import FlatTree.Proofs.Package.Interchange

/-!
# Slack is harmless

Bytes after a buffer are bytes of its heap. Where all texts end in the heap of the
buffer itself, none of them is read differently, so the buffer answers alike with
slack and without. Both ways of laying out a buffer end every text that they write.

- `Regions.TextsEnded.sameContent`: buffers in which all texts end have the same
  content with slack.
- `RawBuffer.textsEnded`: where every expression is stored, all texts end.
- `ReadAlike`: two buffers are decoded, materialized and summed up alike.
- `slack_harmless`: so are the buffers of trees and documents, with slack and without.
-/

namespace FlatTree

/-! ## Texts that are stored end in the heap -/

/-- A slot of a text holds its offset. -/
theorem Slot.StoredAs.exists_holds {strings : ByteArray} {word : UInt64} {s : Slot}
    (h : s.StoredAs strings word) (htext : s.type.isText) :
    ∃ offset text, word = Nat.toUInt64 offset ∧ Heap.Holds strings offset text := by
  match s, h with
  | .scalar (.string text), ⟨offset, hword, hholds⟩ => exact ⟨offset, text, hword, hholds⟩
  | .scalar (.symbol name), ⟨offset, hword, hholds⟩ => exact ⟨offset, name, hword, hholds⟩
  | .scalar (.bool _), _ => cases htext
  | .scalar (.long _), _ => cases htext
  | .scalar (.double _), _ => cases htext
  | .expression _, _ => cases htext

namespace RawBuffer

variable {raw : RawBuffer} {policy : RunPolicy}

/-- **Where every expression is stored, all texts end.** -/
theorem textsEnded (hvalid : policy.Valid) (hsmall : raw.Small)
    (hstores : ∀ index < raw.exprs.size, ∃ head start held,
      raw.Stores policy index head start held) : raw.regions.TextsEnded where
  heads index record hrecord := by
    have hraw := expression_regions.mp hrecord
    obtain ⟨head, start, held, hstored⟩ := hstores index (Array.getElem?_eq_some_iff.mp hraw).1
    obtain ⟨offset, hholds, hheld⟩ := hstored.record
    cases hraw.symm.trans hheld
    rw [hsmall.toNat_offset hholds]
    exact hholds.ended
  texts index range block place word hrange hblock hplace htext hword := by
    obtain ⟨record, hrecord, -⟩ := bind_eq_ok.mp hrange
    have hindex := (Array.getElem?_eq_some_iff.mp (expression_regions.mp hrecord)).1
    obtain ⟨head, start, held, hstored⟩ := hstores index hindex
    cases (hstored.children hsmall.args).symm.trans hrange
    obtain ⟨s, -, other, htype, hother, hstoredAs⟩ :=
      hstored.exists_storedAs hvalid hblock hplace
    cases (argWord_regions.mp hword).symm.trans hother
    obtain ⟨offset, text, rfl, hholds⟩ := hstoredAs.exists_holds (htype ▸ htext)
    rw [hsmall.toNat_offset hholds]
    exact hholds.ended

end RawBuffer

/-- **A buffer in which all texts end has the same content with slack.** -/
theorem Regions.TextsEnded.sameContent {r : Regions} (h : r.TextsEnded) (slack : ByteArray) :
    r.SameContent (r.withSlack slack) where
  expression _ := rfl
  children _ := rfl
  headOf := h.headOf slack
  walks _ _ _ := by rw [Regions.toList_withSlack]
  reads _ _ _ hrange hplace := by
    obtain ⟨block, hblock, hmem⟩ := ok_mem_walkPlaces.mp hplace
    exact h.read slack hrange hblock hmem

/-! ## Buffers that are read alike -/

/-- Two buffers are decoded to the same value, with every limit on the nesting; the view of
the root is materialized to the same value; and the sums over columns are the same. Where
one of these fails for the one, it fails with the same error for the other. -/
structure ReadAlike (bytes other : ByteArray) : Prop where
  decode : ∀ maxDepth, Eager.decodeBuffer maxDepth other = Eager.decodeBuffer maxDepth bytes
  materialize : (View.root other >>= View.materialize) = View.root bytes >>= View.materialize
  sum : ∀ column, (View.root other >>= fun root => Package.sumView root column) =
    View.root bytes >>= fun root => Package.sumView root column

/-- Buffers that answer alike are read alike. -/
theorem Regions.SameAnswers.readAlike {r s : Regions} {bytes other : ByteArray}
    (h : r.SameAnswers s) (hr : Regions.parse bytes = .ok r) (hs : Regions.parse other = .ok s) :
    ReadAlike bytes other := by
  have hroot : View.root other = View.on s <$> View.root bytes := by
    rw [View.root, View.root, hr, hs]
    exact h.ofIndex 0
  have hview : ∀ root, View.root bytes = .ok root → root = ⟨r, 0⟩ := by
    intro root hok
    rw [View.root, hr] at hok
    obtain ⟨_, -, rfl⟩ := bind_pure_eq_ok.mp hok
    rfl
  refine ⟨fun maxDepth => ?_, ?_, fun column => ?_⟩
  · rw [Eager.decodeBuffer, Eager.decodeBuffer, hr, hs]
    exact h.decodeExpression maxDepth 0
  · rw [hroot, bind_map_left]
    cases hok : View.root bytes with
    | error e => rw [error_bind, error_bind]
    | ok root =>
      cases hview root hok
      exact (h.view 0).materialize
  · rw [hroot, bind_map_left]
    cases hok : View.root bytes with
    | error e => rw [error_bind, error_bind]
    | ok root =>
      cases hview root hok
      exact Package.sumView_on h 0 column

/-- A buffer in which every expression is stored is read alike with slack. -/
theorem RawBuffer.readAlike_append {raw : RawBuffer} {policy : RunPolicy}
    {reserved : UInt64 × UInt64} (hvalid : policy.Valid) (hparallel : raw.args.size = raw.tags.size)
    (hsize : FitsMemory (raw.toBytesWith reserved))
    (hstores : ∀ index < raw.exprs.size, ∃ head start held,
      raw.Stores policy index head start held) (slack : ByteArray) :
    ReadAlike (raw.toBytesWith reserved) (raw.toBytesWith reserved ++ slack) :=
  ((RawBuffer.textsEnded hvalid (small_of_fitsMemory hsize) hstores).sameContent
    slack).sameAnswers.readAlike (parse_toBytesWith hparallel hsize)
      (parse_append hparallel hsize slack)

/-! ## Trees and documents -/

namespace Tree

variable {policy : RunPolicy} {head : String} {children : List Tree}

/-- The layout of a tree stores all its expressions. -/
theorem exists_stores_layOut (hvalid : policy.Valid) :
    ∀ index < ((node head children).layOut policy).exprs.size, ∃ name start held,
      ((node head children).layOut policy).Stores policy index name start held := by
  intro index hindex
  rw [size_exprs_layOut hvalid] at hindex
  obtain ⟨start, hstores⟩ := (layOut_addsAll hvalid head children).stores index _
    (List.getElem?_eq_getElem hindex)
  rw [show Layout.initial.raw.exprs.size = 0 from rfl, Nat.zero_add] at hstores
  exact ⟨_, start, _, hstores⟩

/-- The buffer of a tree is read alike with slack. -/
theorem readAlike_append (hvalid : policy.Valid)
    (hsize : FitsMemory ((node head children).toBytes policy)) (slack : ByteArray) :
    ReadAlike ((node head children).toBytes policy)
      ((node head children).toBytes policy ++ slack) :=
  RawBuffer.readAlike_append hvalid (layOut_addsAll hvalid head children).parallel hsize
    (exists_stores_layOut hvalid) slack

end Tree

namespace Document

variable {document : Document}

/-- The buffer of a document is read alike with slack. -/
theorem readAlike_append (hroot : document.IsContainer) {bytes : ByteArray}
    (hbytes : document.toBytes? = some bytes) (hsize : FitsMemory bytes) (slack : ByteArray) :
    ReadAlike bytes (bytes ++ slack) := by
  obtain ⟨last, hwritten⟩ := exists_written hroot (slots_census_lt hbytes hsize)
  rw [toBytes?, hwritten.layOut] at hbytes
  cases hbytes
  have hparallel := hwritten.wrote.fits.args.trans hwritten.wrote.fits.tags.symm
  refine RawBuffer.readAlike_append RunPolicy.valid_document hparallel hsize
    (fun index hindex => ?_) slack
  rw [hwritten.size_exprs, ← length_placed] at hindex
  exact ⟨_, _, _, (hwritten.storedIn hroot).stores index _ (List.getElem?_eq_getElem hindex)⟩

end Document

/-- **Slack is harmless.** Bytes after a heap change no text that ends in it. So the buffer
of a tree, whatever runs it is written with, and the buffer of a document, which it has if its
slots can be counted, are read alike with any bytes after them. -/
theorem slack_harmless :
    (∀ {heap : ByteArray} {offset : Nat}, Heap.Ended heap offset → ∀ slack,
      Heap.textAt (heap ++ slack) offset = Heap.textAt heap offset) ∧
    (∀ {policy : RunPolicy} {head : String} {children : List Tree}, policy.Valid →
      FitsMemory ((Tree.node head children).toBytes policy) → ∀ slack,
        ReadAlike ((Tree.node head children).toBytes policy)
          ((Tree.node head children).toBytes policy ++ slack)) ∧
    ∀ {document : Document}, document.IsContainer →
      (document.census.slots < 2 ^ 64 → document.toBytes?.isSome) ∧
      ∀ {bytes}, document.toBytes? = some bytes → FitsMemory bytes → ∀ slack,
        ReadAlike bytes (bytes ++ slack) :=
  ⟨fun h => h.textAt_append, fun hvalid hsize => Tree.readAlike_append hvalid hsize,
    fun hroot => ⟨fun hslots =>
      Option.isSome_iff_exists.mpr (Document.exists_toBytes? hroot hslots),
      Document.readAlike_append hroot⟩⟩

/-- The text `f` at the end of a heap, a list that is a run and a list of a text, each with
another byte. -/
theorem slack_harmless_lists :
    Heap.textAt (RawBuffer.textEntry "f" ++ ⟨#[103]⟩) 0 = .ok "f" ∧
    ReadAlike ((Tree.node "List" [.scalar (.long 1), .scalar (.long 2)]).toBytes ⟨some 2, false⟩)
      ((Tree.node "List" [.scalar (.long 1), .scalar (.long 2)]).toBytes ⟨some 2, false⟩ ++
        ⟨#[103]⟩) ∧
    ∃ bytes, (Document.list [.string "f"]).toBytes? = some bytes ∧
      ReadAlike bytes (bytes ++ ⟨#[103]⟩) := by
  have hended : Heap.Ended (RawBuffer.textEntry "f") 0 := ⟨1, by decide, by decide +kernel⟩
  have hsize : FitsMemory
      ((Tree.node "List" [.scalar (.long 1), .scalar (.long 2)]).toBytes ⟨some 2, false⟩) := by
    unfold FitsMemory
    decide +kernel
  obtain ⟨hwritten, hread⟩ := slack_harmless.2.2
    (show (Document.list [.string "f"]).IsContainer from trivial)
  obtain ⟨bytes, hbytes⟩ := Option.isSome_iff_exists.mp (hwritten (by decide))
  have hcount : ((Document.list [.string "f"]).toBytes?.map ByteArray.size).any (· < 2 ^ 64) := by
    decide +kernel
  have hfits : bytes.size < 2 ^ 64 := by
    rw [hbytes] at hcount
    exact of_decide_eq_true hcount
  refine ⟨(slack_harmless.1 hended _).trans ?_,
    slack_harmless.2.1 (RunPolicy.valid_some (Nat.le_refl 2)) hsize _,
    bytes, hbytes, hread hbytes hfits _⟩
  decide +kernel

end FlatTree
