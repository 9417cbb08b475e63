import FlatTree.Buffer.Fault

/-!
# The text heap

Texts lie in the heap one after the other, each ended by a zero byte. A text is looked at in chunks
of 32 bytes: it ends at the first zero byte of a chunk, a chunk full of other bytes goes on in the
next one, and a chunk cut short by the end of the heap ends the text. Validation runs over the
whole text, so a character may straddle two chunks.

- `Heap.textEnd`: where the text from an offset ends.
- `Heap.textAt`: the text from an offset.
-/

namespace FlatTree.Heap

/-- Bytes in a chunk. -/
def chunkSize : Nat := 32

/-- The first zero byte among the bytes from `i` up to `stop`. -/
def zeroByte? (heap : ByteArray) (i stop : Nat) : Option Nat :=
  if i < stop then
    if heap[i]? = some 0 then some i else zeroByte? heap (i + 1) stop
  else
    none
termination_by stop - i

/-- Where the text that goes on at `cursor` ends. -/
def textEnd (heap : ByteArray) (cursor : Nat) : Nat :=
  let chunkEnd := min (cursor + chunkSize) heap.size
  match zeroByte? heap cursor chunkEnd with
  | some i => i
  | none =>
    if _h : chunkEnd - cursor < chunkSize then chunkEnd else textEnd heap chunkEnd
termination_by heap.size - cursor
decreasing_by simp only [chunkSize] at *; omega

/-- The text from an offset. -/
def textAt (heap : ByteArray) (offset : Nat) : Except Fault String :=
  if heap.size < offset then
    .error (.textOutOfRange offset heap.size)
  else
    match String.fromUTF8? (heap.extract offset (textEnd heap offset)) with
    | some text => .ok text
    | none => .error (.invalidText offset)

end FlatTree.Heap
