import FlatTree.Buffer.Slot

/-!
# Buffers as words

The regions of a buffer before they become bytes, so that single words can be set.

- `RawBuffer.pushText`: adds a text to the heap.
- `RawBuffer.pushScalar`: the word of a scalar, whose text goes to the heap.
- `RawBuffer.toBytes`: the buffer, with counts that match its regions.
-/

namespace FlatTree

/-- The regions of a buffer as words, and its heap. -/
structure RawBuffer where
  args : Array UInt64
  tags : Array UInt64
  exprs : Array Record
  strings : ByteArray

namespace RawBuffer

/-- No slots, no expressions, no texts. -/
def empty : RawBuffer := ⟨#[], #[], #[], .empty⟩

/-- The heap entry of a text: its UTF-8 bytes and a zero byte. -/
def textEntry (text : String) : ByteArray := text.toUTF8.push 0

/-- Adds a text to the heap. -/
def pushText (raw : RawBuffer) (text : String) : RawBuffer :=
  { raw with strings := raw.strings ++ textEntry text }

/-- The offset of the next text that is added. -/
def nextText (raw : RawBuffer) : UInt64 := raw.strings.size.toUInt64

/-- The word of a scalar. The text of a string or a symbol goes to the heap. -/
def pushScalar (raw : RawBuffer) : Scalar → RawBuffer × UInt64
  | .bool value => (raw, if value then 1 else 0)
  | .long word => (raw, word)
  | .double bits => (raw, bits)
  | .string text => (raw.pushText text, raw.nextText)
  | .symbol name => (raw.pushText name, raw.nextText)

/-- The words of a record. -/
def recordWords (record : Record) : List UInt64 := [record.head, record.start, record.stop]

/-- All words before the heap. The two words after the counts are free for the writer's use. -/
def words (raw : RawBuffer) (reserved : UInt64 × UInt64) : List UInt64 :=
  [raw.args.size.toUInt64, raw.exprs.size.toUInt64, reserved.1, reserved.2] ++
    raw.args.toList ++ raw.tags.toList ++ raw.exprs.toList.flatMap recordWords

/-- The buffer with the given free words in its header. -/
def toBytesWith (raw : RawBuffer) (reserved : UInt64 × UInt64) : ByteArray :=
  ((raw.words reserved).flatMap wordBytes).toByteArray ++ raw.strings

/-- The buffer. -/
def toBytes (raw : RawBuffer) : ByteArray := raw.toBytesWith (0, 0)

end RawBuffer

end FlatTree
