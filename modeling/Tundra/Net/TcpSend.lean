import Mathlib.Data.List.Basic
import Tundra.Net.TcpOutput

set_option autoImplicit false

/- The three send overloads as one operation on an argument held by the caller. -/
namespace Tundra

/-- What the caller passes: an address and a length, c_str() and size() of a
string, or a Buffer. The bytes of the first two are in the memory. -/
inductive SendArg
  | pointer (msg len : Nat)
  | string (cstr size : Nat)
  | buffer (buf : Buffer)

namespace SendArg

def length : SendArg → Nat
  | .pointer _ len => len
  | .string _ size => size
  | .buffer buf => buf.readableBytes

/-- The message, as the memory holds it. -/
def content (mem : Memory) : SendArg → Bytes
  | .pointer msg len => readFrom (mem.pointer msg) 0 len
  | .string cstr size => readFrom (mem.pointer cstr) 0 size
  | .buffer buf => buf.content

/-- The pointer that the overload passes to sendInLoop on the loop thread. -/
def start (mem : Memory) (behind : Nat → UInt8) : SendArg → Nat → UInt8
  | .pointer msg _ => mem.pointer msg
  | .string cstr _ => mem.pointer cstr
  | .buffer buf => pointerInto (buf.buffer.drop buf.readerIndex) behind

/-- The argument after the call: a Buffer has been drained. -/
def left : SendArg → SendArg
  | .pointer msg len => .pointer msg len
  | .string cstr size => .string cstr size
  | .buffer buf => .buffer buf.retrieveAll

/-- The arguments bound to the functor by a foreign thread. -/
def bound : SendArg → Bound
  | .pointer msg len => .pointer msg len
  | .string cstr size => .pointer cstr size
  | .buffer buf => .string (buf.buffer.take buf.readableBytes)

end SendArg

/-- The letters A, B and X at the addresses 0, 1 and 2, for the concrete runs. -/
def letters : Memory := fun address => [65, 66, 88][address]?.getD 0

/-- Reading an object through a pointer to it, up to its length. -/
theorem readFrom_pointerInto (bytes : Bytes) (behind : Nat → UInt8) (n : Nat)
    (inside : n ≤ bytes.length) : readFrom (pointerInto bytes behind) 0 n = bytes.take n := by
  apply List.ext_getElem
  · simp only [readFrom_length, List.length_take]
    omega
  · intro i lower _
    rw [readFrom_length] at lower
    have bound : i < bytes.length := by omega
    simp [readFrom, pointerInto, bound]

theorem SendArg.readFrom_start (mem : Memory) (behind : Nat → UInt8) (arg : SendArg) :
    readFrom (arg.start mem behind) 0 arg.length = arg.content mem := by
  cases arg with
  | pointer msg len => rfl
  | string cstr size => rfl
  | buffer buf =>
      have ordered := buf.reader_le
      have bounded := buf.writer_le
      rw [start, length, content, readFrom_pointerInto]
      · rw [Buffer.content, Library.slice, List.drop_take, Buffer.readableBytes]
      · rw [List.length_drop, Buffer.readableBytes]
        omega

namespace TcpConnection

/-- send, with the caller's argument as it is left behind. -/
def sendArg (c : TcpConnection) (mem : Memory) (behind : Nat → UInt8) (inLoopThread : Bool)
    (answer : WriteResult) : SendArg → Option (Outcome × SendArg)
  | .pointer msg len =>
      (c.send mem msg len inLoopThread answer).map fun r => (r, .pointer msg len)
  | .string cstr size =>
      (c.sendString mem cstr size inLoopThread answer).map fun r => (r, .string cstr size)
  | .buffer buf =>
      (c.sendBuffer buf behind inLoopThread answer).map fun r => (r.1, .buffer r.2)

theorem sendArg_inLoop (c : TcpConnection) (mem : Memory) (behind : Nat → UInt8)
    (answer : WriteResult) (arg : SendArg) (connected : c.state = .kConnected) :
    c.sendArg mem behind true answer arg =
      (c.sendInLoop (arg.start mem behind) arg.length answer).map fun r => (r, arg.left) := by
  cases arg with
  | pointer msg len => simp only [sendArg, send, connected, ↓reduceIte]; rfl
  | string cstr size => simp only [sendArg, sendString, send, connected, ↓reduceIte]; rfl
  | buffer buf =>
      simp only [sendArg, sendBuffer, connected, ↓reduceIte, Option.map_map, Function.comp_def]
      rfl

/-- What a foreign thread leaves in the queue. -/
theorem sendArg_foreign (c : TcpConnection) (mem : Memory) (behind : Nat → UInt8)
    (answer : WriteResult) (arg : SendArg) (connected : c.state = .kConnected) :
    c.sendArg mem behind false answer arg =
      some ((c, [.queueInLoop (.sendInLoop arg.bound)]), arg.left) := by
  cases arg with
  | pointer msg len => simp [sendArg, send, connected, SendArg.bound, SendArg.left]
  | string cstr size => simp [sendArg, sendString, send, connected, SendArg.bound, SendArg.left]
  | buffer buf =>
      simp [sendArg, sendBuffer, connected, Buffer.retrieveAllAsString_eq, SendArg.bound,
        SendArg.left]

/-- A send that does not find the connection up does nothing. -/
theorem sendArg_closed (c : TcpConnection) (mem : Memory) (behind : Nat → UInt8)
    (inLoopThread : Bool) (answer : WriteResult) (arg : SendArg) (closed : c.state ≠ .kConnected) :
    c.sendArg mem behind inLoopThread answer arg = some ((c, []), arg) := by
  cases arg with
  | pointer msg len => simp [sendArg, send, closed]
  | string cstr size => simp [sendArg, sendString, send, closed]
  | buffer buf => simp [sendArg, sendBuffer, closed]

theorem sendArg_calm (c : TcpConnection) (mem : Memory) (behind : Nat → UInt8)
    (answer : WriteResult) (arg : SendArg) :
    ∃ r left, c.sendArg mem behind true answer arg = some (r, left) ∧ Calm c r ∧
      r.1.halfCloses = c.halfCloses := by
  by_cases connected : c.state = .kConnected
  · obtain ⟨r, done, calm, same⟩ := sendInLoop_calm c (arg.start mem behind) arg.length answer
    refine ⟨r, arg.left, ?_, calm, same⟩
    rw [sendArg_inLoop c mem behind answer arg connected, done, Option.map_some]
  · exact ⟨_, _, sendArg_closed c mem behind true answer arg connected, Calm.refl c, rfl⟩

theorem runSend_calm (c : TcpConnection) (mem : Memory) (behind : Nat → UInt8)
    (answer : WriteResult) (bound : Bound) :
    ∃ r, c.runSend mem behind answer bound = some r ∧ Calm c r ∧
      r.1.halfCloses = c.halfCloses := by
  cases bound with
  | pointer msg len => exact sendInLoop_calm c _ _ answer
  | string msg => exact sendInLoop_calm c _ _ answer

end TcpConnection
end Tundra
