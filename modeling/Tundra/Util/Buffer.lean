import Mathlib.Data.List.Basic
import Tundra.Library.Slice
import Tundra.Library.Separator

set_option autoImplicit false

/- util/Buffer: a vector of bytes with a reader and a writer index. An operation
that asserts returns `none` when the assertion fails. Sizes are natural numbers:
none of the index sums comes near the range of size_t. -/
namespace Tundra

open Library (slice overwrite resize)

abbrev Bytes := List UInt8

structure Buffer where
  buffer : Bytes
  readerIndex : Nat
  writerIndex : Nat
  reader_le : readerIndex ≤ writerIndex
  writer_le : writerIndex ≤ buffer.length
deriving DecidableEq

namespace Buffer

def kCheapPrepend : Nat := 8
def kInitialSize : Nat := 4088

/-- Buffer(), with the default initialSize. -/
def fresh : Buffer where
  buffer := List.replicate (kCheapPrepend + kInitialSize) 0
  readerIndex := kCheapPrepend
  writerIndex := kCheapPrepend
  reader_le := Nat.le_refl _
  writer_le := by simp only [List.length_replicate]; omega

def readableBytes (b : Buffer) : Nat := b.writerIndex - b.readerIndex
def writableBytes (b : Buffer) : Nat := b.buffer.length - b.writerIndex
def prependableBytes (b : Buffer) : Nat := b.readerIndex

/-- The readable bytes, from peek() to beginWrite(). -/
def content (b : Buffer) : Bytes := slice b.buffer b.readerIndex b.writerIndex

def retrieveAll (b : Buffer) : Buffer where
  buffer := b.buffer
  readerIndex := 0
  writerIndex := 0
  reader_le := Nat.le_refl _
  writer_le := Nat.zero_le _

def retrieve (b : Buffer) (len : Nat) : Option Buffer :=
  if within : len ≤ b.readableBytes then
    if len < b.readableBytes then
      some { b with
        readerIndex := b.readerIndex + len
        reader_le := by
          have ordered := b.reader_le
          unfold readableBytes at within
          omega }
    else some b.retrieveAll
  else none

/-- `stop` is the distance from peek() of the pointer the source passes. -/
def retrieveUntil (b : Buffer) (stop : Nat) : Option Buffer :=
  if stop ≤ b.readableBytes then b.retrieve stop else none

/-- memmem over the readable bytes; the result is its distance from peek(). -/
def findCRLF (b : Buffer) : Option Nat := Library.findPair 13 10 b.content

/-- The string is built from begin(), the start of the storage. -/
def retrieveAsString (b : Buffer) (len : Nat) : Option (Bytes × Buffer) :=
  if len ≤ b.readableBytes then
    (b.retrieve len).map (fun rest => (b.buffer.take len, rest))
  else none

def retrieveAllAsString (b : Buffer) : Option (Bytes × Buffer) :=
  b.retrieveAsString b.readableBytes

theorem moved_le (b : Buffer) (gap : kCheapPrepend < b.readerIndex) :
    kCheapPrepend + b.content.length ≤ b.buffer.length := by
  have ordered := b.reader_le
  have bounded := b.writer_le
  have size := Library.slice_length b.buffer b.readerIndex b.writerIndex bounded
  unfold content
  omega

def makeSpace (b : Buffer) (len : Nat) : Option Buffer :=
  if b.writableBytes + b.prependableBytes < len + kCheapPrepend then
    some { b with
      buffer := resize b.buffer (b.writerIndex + len) 0
      writer_le := by rw [Library.resize_length]; omega }
  else if gap : kCheapPrepend < b.readerIndex then
    -- the readable bytes move to the front, behind the cheap prepend area
    some {
      buffer := overwrite b.buffer kCheapPrepend b.content
      readerIndex := kCheapPrepend
      writerIndex := kCheapPrepend + b.content.length
      reader_le := Nat.le_add_right _ _
      writer_le := by
        rw [Library.overwrite_length _ _ _ (b.moved_le gap)]
        exact b.moved_le gap }
  else none

/-- The closing assertion is kept as a fact about the result. -/
def ensureWriteableBytes (b : Buffer) (len : Nat) :
    Option { r : Buffer // len ≤ r.writableBytes } :=
  (if b.writableBytes < len then b.makeSpace len else some b).bind fun r =>
    if room : len ≤ r.writableBytes then some ⟨r, room⟩ else none

/-- The writer index advanced over bytes that are already in place. -/
def hasWritten (b : Buffer) (len : Nat) : Option Buffer :=
  if room : len ≤ b.writableBytes then
    some { b with
      writerIndex := b.writerIndex + len
      reader_le := Nat.le_trans b.reader_le (Nat.le_add_right _ _)
      writer_le := by
        have bounded := b.writer_le
        unfold writableBytes at room
        omega }
  else none

/-- The copy at beginWrite() and the move of the writer index. -/
def copyIn (b : Buffer) (data : Bytes) (room : data.length ≤ b.writableBytes) : Buffer where
  buffer := overwrite b.buffer b.writerIndex data
  readerIndex := b.readerIndex
  writerIndex := b.writerIndex + data.length
  reader_le := Nat.le_trans b.reader_le (Nat.le_add_right _ _)
  writer_le := by
    have bounded := b.writer_le
    unfold writableBytes at room
    rw [Library.overwrite_length] <;> omega

def append (b : Buffer) (data : Bytes) : Option Buffer :=
  (b.ensureWriteableBytes data.length).map fun r => r.val.copyIn data r.property

def unwrite (b : Buffer) (len : Nat) : Option Buffer :=
  if within : len < b.readableBytes then
    some { b with
      writerIndex := b.writerIndex - len
      reader_le := by
        unfold readableBytes at within
        omega
      writer_le := Nat.le_trans (Nat.sub_le _ _) b.writer_le }
  else none

/-- The copy goes to begin(), the start of the storage. -/
def prepend (b : Buffer) (data : Bytes) : Option Buffer :=
  if room : data.length ≤ b.prependableBytes then
    some { b with
      buffer := overwrite b.buffer 0 data
      readerIndex := b.readerIndex - data.length
      reader_le := Nat.le_trans (Nat.sub_le _ _) b.reader_le
      writer_le := by
        have ordered := b.reader_le
        have bounded := b.writer_le
        unfold prependableBytes at room
        rw [Library.overwrite_length] <;> omega }
  else none

def extrabufSize : Nat := 65536

/-- The bytes readv is offered room for: the second area only counts when the
buffer has less free space than it. -/
def offered (b : Buffer) : Nat :=
  if b.writableBytes < extrabufSize then b.writableBytes + extrabufSize else b.writableBytes

/-- `input` is what the descriptor has to deliver, `none` a failing readv. The
kernel fills the areas in order, so the call takes a prefix. -/
def readFd (b : Buffer) (input : Option Bytes) : Option Buffer :=
  match input with
  | none => some b
  | some data =>
      let got := data.take b.offered
      if room : got.length ≤ b.writableBytes then some (b.copyIn got room)
      else
        (b.copyIn (got.take b.writableBytes)
          (by simp only [List.length_take]; omega)).append (got.drop b.writableBytes)

/-- What readFd returns, `none` for the -1 of a failing readv. -/
def readFdCount (b : Buffer) (input : Option Bytes) : Option Nat :=
  input.map fun data => (data.take b.offered).length

end Buffer
end Tundra
