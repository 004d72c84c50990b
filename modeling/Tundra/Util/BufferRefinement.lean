import Mathlib.Data.List.Basic
import Tundra.Library.Machine
import Tundra.Util.BufferQueue

set_option autoImplicit false

/- A Buffer over any history of calls: it is a queue of bytes, and none of its
assertions fails as long as the callers stay within the bytes there are. -/
namespace Tundra.Buffer

open Library

inductive BufferOp
  | append (data : Bytes)
  | retrieve (len : Nat)
  | retrieveUntil (stop : Nat)
  | retrieveAll
  | ensureWriteableBytes (len : Nat)
  | hasWritten (len : Nat)
  | readFd (input : Option Bytes)
deriving DecidableEq

/-- What the callers promise: they take no more than is readable and announce no more
than is writable, and readv fills no more than it is offered. -/
def Legal (b : Buffer) : BufferOp → Prop
  | .retrieve len => len ≤ b.readableBytes
  | .retrieveUntil stop => stop ≤ b.readableBytes
  | .hasWritten len => len ≤ b.writableBytes
  | .readFd (some data) => data.length ≤ b.offered
  | .append _ | .retrieveAll | .ensureWriteableBytes _ | .readFd none => True

instance decidableLegal (b : Buffer) : (op : BufferOp) → Decidable (b.Legal op)
  | .retrieve len => inferInstanceAs (Decidable (len ≤ b.readableBytes))
  | .retrieveUntil stop => inferInstanceAs (Decidable (stop ≤ b.readableBytes))
  | .hasWritten len => inferInstanceAs (Decidable (len ≤ b.writableBytes))
  | .readFd (some data) => inferInstanceAs (Decidable (data.length ≤ b.offered))
  | .append _ => inferInstanceAs (Decidable True)
  | .retrieveAll => inferInstanceAs (Decidable True)
  | .ensureWriteableBytes _ => inferInstanceAs (Decidable True)
  | .readFd none => inferInstanceAs (Decidable True)

def perform (b : Buffer) : BufferOp → Option Buffer
  | .append data => b.append data
  | .retrieve len => b.retrieve len
  | .retrieveUntil stop => b.retrieveUntil stop
  | .retrieveAll => some b.retrieveAll
  | .ensureWriteableBytes len => (b.ensureWriteableBytes len).map Subtype.val
  | .hasWritten len => b.hasWritten len
  | .readFd input => b.readFd input

def machine : Machine Buffer BufferOp := ⟨Legal, perform⟩

instance decidableEnabled (b : Buffer) (op : BufferOp) : Decidable (machine.enabled b op) :=
  decidableLegal b op

/-- A queue of bytes. hasWritten adds bytes that somebody else has put in place. -/
inductive QueueStep : Bytes → BufferOp → Bytes → Prop
  | append (queue data : Bytes) : QueueStep queue (.append data) (queue ++ data)
  | retrieve (queue : Bytes) (len : Nat) : QueueStep queue (.retrieve len) (queue.drop len)
  | retrieveUntil (queue : Bytes) (stop : Nat) :
      QueueStep queue (.retrieveUntil stop) (queue.drop stop)
  | retrieveAll (queue : Bytes) : QueueStep queue .retrieveAll []
  | ensureWriteableBytes (queue : Bytes) (len : Nat) :
      QueueStep queue (.ensureWriteableBytes len) queue
  | hasWritten (queue data : Bytes) : QueueStep queue (.hasWritten data.length) (queue ++ data)
  | readFd (queue data : Bytes) : QueueStep queue (.readFd (some data)) (queue ++ data)
  | readFdError (queue : Bytes) : QueueStep queue (.readFd none) queue

/-- What the indices and the storage add to the step of the queue. -/
def Effect (b : Buffer) (op : BufferOp) (r : Buffer) : Prop :=
  QueueStep b.content op r.content ∧
    match op with
    | .ensureWriteableBytes len => len ≤ r.writableBytes
    | .hasWritten len =>
        r.content = b.content ++ slice b.buffer b.writerIndex (b.writerIndex + len)
    | .readFd none => r = b ∧ b.readFdCount none = none
    | .readFd (some data) => b.readFdCount (some data) = some data.length
    | .append _ | .retrieve _ | .retrieveUntil _ | .retrieveAll => True

theorem hasWritten_content (b : Buffer) (len : Nat) (room : len ≤ b.writableBytes) :
    ∃ r, b.hasWritten len = some r ∧
      r.content = b.content ++ slice b.buffer b.writerIndex (b.writerIndex + len) := by
  unfold hasWritten
  rw [dif_pos room]
  refine ⟨_, rfl, ?_⟩
  exact slice_append b.buffer b.readerIndex b.writerIndex (b.writerIndex + len) b.reader_le
    (Nat.le_add_right _ _)

/-- One call: its assertions hold and the queue makes the step it stands for. -/
theorem perform_effect (b : Buffer) (op : BufferOp) (legal : b.Legal op) :
    ∃ r, b.perform op = some r ∧ Effect b op r := by
  cases op with
  | append data =>
      obtain ⟨r, done, content⟩ := append_content b data
      exact ⟨r, done, by rw [content]; exact .append _ _, trivial⟩
  | retrieve len =>
      obtain ⟨r, done, content⟩ := retrieve_content b len legal
      exact ⟨r, done, by rw [content]; exact .retrieve _ _, trivial⟩
  | retrieveUntil stop =>
      obtain ⟨r, done, content⟩ := retrieveUntil_content b stop legal
      exact ⟨r, done, by rw [content]; exact .retrieveUntil _ _, trivial⟩
  | retrieveAll =>
      exact ⟨_, rfl, by rw [retrieveAll_content]; exact .retrieveAll _, trivial⟩
  | ensureWriteableBytes len =>
      obtain ⟨r, done, content⟩ := ensureWriteableBytes_content b len
      refine ⟨r.val, ?_, by rw [content]; exact .ensureWriteableBytes _ _, r.property⟩
      rw [perform, done, Option.map_some]
  | hasWritten len =>
      obtain ⟨r, done, content⟩ := hasWritten_content b len legal
      refine ⟨r, done, ?_, content⟩
      have length : (slice b.buffer b.writerIndex (b.writerIndex + len)).length = len := by
        have bounded := b.writer_le
        have room : len ≤ b.buffer.length - b.writerIndex := legal
        rw [slice_length _ _ _ (by omega)]
        omega
      have step := QueueStep.hasWritten b.content
        (slice b.buffer b.writerIndex (b.writerIndex + len))
      rwa [length, ← content] at step
  | readFd input =>
      cases input with
      | none => exact ⟨b, rfl, .readFdError _, rfl, rfl⟩
      | some data =>
          have all : data.take b.offered = data := List.take_of_length_le legal
          obtain ⟨r, done, content⟩ := readFd_content b data
          rw [all] at content
          have count : b.readFdCount (some data) = some data.length := by
            rw [readFdCount, Option.map_some, all]
          exact ⟨r, done, by rw [content]; exact .readFd _ _, count⟩

/-- The Buffer refines a queue of bytes: in every state it reaches its indices are in
order, it has made the steps of the queue, and the next call, whichever it is, completes
and does to the queue what it stands for. -/
theorem buffer_refines_queue (ops : List BufferOp) (b : Buffer)
    (run : machine.Run fresh ops b) :
    (fresh.readableBytes = 0 ∧ fresh.writableBytes = kInitialSize) ∧
      b.readerIndex ≤ b.writerIndex ∧ b.writerIndex ≤ b.buffer.length ∧
      Machine.Path QueueStep [] ops b.content ∧
      ∀ op, b.Legal op → ∃ r, b.perform op = some r ∧ Effect b op r := by
  refine ⟨⟨rfl, by decide +kernel⟩, b.reader_le, b.writer_le, ?_, ?_⟩
  · rw [← fresh_content]
    apply run.simulates content
    intro s op t legal moved
    obtain ⟨r, done, step, _⟩ := perform_effect s op legal
    have same : some r = some t := done.symm.trans moved
    cases same
    exact step
  · intro op legal
    exact perform_effect b op legal

/-- A history in which the readable bytes are moved to the front before an append. -/
theorem buffer_refines_queue_moved :
    ∃ b, machine.Run fresh [.ensureWriteableBytes 4088, .append (List.replicate 4000 65),
        .retrieve 3990, .append (List.replicate 100 66)] b ∧
      b.readerIndex = kCheapPrepend ∧
      Machine.Path QueueStep [] [.ensureWriteableBytes 4088, .append (List.replicate 4000 65),
        .retrieve 3990, .append (List.replicate 100 66)] b.content := by
  obtain ⟨b, run, index⟩ := Machine.exists_run_of_play machine fresh
    [.ensureWriteableBytes 4088, .append (List.replicate 4000 65), .retrieve 3990,
      .append (List.replicate 100 66)] readerIndex kCheapPrepend (by decide +kernel)
  exact ⟨b, run, index, (buffer_refines_queue _ b run).2.2.2.1⟩

end Tundra.Buffer
