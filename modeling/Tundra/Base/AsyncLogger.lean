import Mathlib.Data.List.Basic
import Tundra.Util.TimeStamp

set_option autoImplicit false

/- base/AsyncLogger: the buffers that the producers fill and the background thread
writes out. -/
namespace Tundra

/-- A formatted line together with the number of the append call it comes from. -/
structure Line where
  number : Nat
  text : Bytes
deriving DecidableEq

/-- The bytes of some lines, one behind the other. -/
def linesBytes (lines : List Line) : Bytes := lines.flatMap Line.text

theorem linesBytes_append (xs ys : List Line) :
    linesBytes (xs ++ ys) = linesBytes xs ++ linesBytes ys :=
  List.flatMap_append

theorem linesBytes_single (line : Line) : linesBytes [line] = line.text := by
  simp only [linesBytes, List.flatMap_cons, List.flatMap_nil, List.append_nil]

/-- The bytes from data_ to cur_ are those of the appended lines. -/
structure FixedBuffer where
  capacity : Nat
  lines : List Line
  fits : (linesBytes lines).length ≤ capacity
deriving DecidableEq

namespace FixedBuffer

def create (capacity : Nat) : FixedBuffer := ⟨capacity, [], Nat.zero_le _⟩

def data (b : FixedBuffer) : Bytes := linesBytes b.lines
def size (b : FixedBuffer) : Nat := b.data.length
def avail (b : FixedBuffer) : Nat := b.capacity - b.size

/-- The test of append, which refuses without a word. -/
def accepts (b : FixedBuffer) (line : Line) : Bool := line.text.length < b.avail

theorem accepts_iff (b : FixedBuffer) (line : Line) :
    b.accepts line = true ↔ line.text.length < b.avail := by
  simp only [accepts, decide_eq_true_eq]

def append (b : FixedBuffer) (line : Line) : FixedBuffer :=
  if room : b.accepts line = true then
    { b with
      lines := b.lines ++ [line]
      fits := by
        have free := (accepts_iff b line).mp room
        unfold avail size data at free
        rw [linesBytes_append, List.length_append, linesBytes_single]
        omega }
  else b

def clear (b : FixedBuffer) : FixedBuffer := create b.capacity

theorem append_lines (b : FixedBuffer) (line : Line) :
    (b.append line).lines = b.lines ++ if b.accepts line then [line] else [] := by
  unfold append
  split
  · rfl
  · rw [List.append_nil]

theorem append_capacity (b : FixedBuffer) (line : Line) :
    (b.append line).capacity = b.capacity := by
  unfold append
  split
  · rfl
  · rfl

theorem append_avail (b : FixedBuffer) (line : Line) (room : b.accepts line = true) :
    (b.append line).avail = b.avail - line.text.length := by
  have lines := append_lines b line
  rw [if_pos room] at lines
  simp only [avail, size, data, lines, append_capacity, linesBytes_append, linesBytes_single,
    List.length_append]
  omega

/-- The bytes of several buffers are those of their lines. -/
theorem flatMap_data (buffers : List FixedBuffer) :
    buffers.flatMap data = linesBytes (buffers.flatMap lines) := by
  rw [linesBytes, List.flatMap_assoc]
  rfl

end FixedBuffer

inductive Level
  | TRACE
  | DEBUG
  | INFO
  | WARN
  | ERROR
  | FATAL
deriving DecidableEq, Repr

def Level.name : Level → Bytes
  | .TRACE => ascii "TRACE"
  | .DEBUG => ascii "DEBUG"
  | .INFO => ascii "INFO"
  | .WARN => ascii "WARN"
  | .ERROR => ascii "ERROR"
  | .FATAL => ascii "FATAL"

/-- What mtx_ guards. `appends` counts the calls of append and `accepted` lists the
lines that FixedBuffer::append took, both for the statements only. -/
structure AsyncLogger where
  currentBuffer : FixedBuffer
  emptyBuffers : List FixedBuffer
  fullBuffers : List FixedBuffer
  curBufferCounts : Nat
  appends : Nat
  accepted : List Line
deriving DecidableEq

namespace AsyncLogger

def blockSize : Nat := 4 * 1024 * 1024
def initialBufferCounts : Nat := 15
def maxBufferCounts : Nat := 16

def create : AsyncLogger where
  currentBuffer := FixedBuffer.create blockSize
  emptyBuffers := List.replicate (initialBufferCounts - 1) (FixedBuffer.create blockSize)
  fullBuffers := []
  curBufferCounts := initialBufferCounts
  appends := 0
  accepted := []

def updateCurBuffer (l : AsyncLogger) : AsyncLogger :=
  match l.emptyBuffers with
  | first :: rest => { l with
      currentBuffer := first
      emptyBuffers := rest
      fullBuffers := l.fullBuffers ++ [l.currentBuffer] }
  | [] => { l with
      currentBuffer := FixedBuffer.create blockSize
      fullBuffers := l.fullBuffers ++ [l.currentBuffer]
      curBufferCounts := l.curBufferCounts + 1 }

/-- trueLogLine: the pointer is read up to its first NUL. -/
def trueLogLine (now : TimeStamp) (logline : Bytes) (level : Level) : Bytes :=
  now.toFormatString ++ ascii " " ++ level.name ++ ascii " " ++ logline.takeWhile (· ≠ 0) ++
    ascii "\n"

/-- currentBuffer_->append(trueLogLine). -/
def put (l : AsyncLogger) (text : Bytes) : AsyncLogger :=
  let line : Line := ⟨l.appends, text⟩
  { l with
    currentBuffer := l.currentBuffer.append line
    appends := l.appends + 1
    accepted := l.accepted ++ if l.currentBuffer.accepts line then [line] else [] }

/-- The room is compared with the length of the bare message. notify_one is left
out: the background thread's wait may end at any time. -/
def append (l : AsyncLogger) (now : TimeStamp) (logline : Bytes) (len : Nat) (level : Level) :
    AsyncLogger :=
  let text := trueLogLine now logline level
  if l.currentBuffer.avail < len then l.updateCurBuffer.put text else l.put text

/-- What waits in fullBuffers_ and currentBuffer_. -/
def waiting (l : AsyncLogger) : List Line :=
  l.fullBuffers.flatMap FixedBuffer.lines ++ l.currentBuffer.lines

/-- Every buffer has the size of a block and those in emptyBuffers_ are empty. -/
structure Pooled (l : AsyncLogger) : Prop where
  current : l.currentBuffer.capacity = blockSize
  fulls : ∀ b ∈ l.fullBuffers, b.capacity = blockSize
  empties : ∀ b ∈ l.emptyBuffers, b = FixedBuffer.create blockSize

theorem create_pooled : Pooled create := by
  refine ⟨rfl, ?_, ?_⟩
  · intro b member
    cases member
  · intro b member
    exact List.eq_of_mem_replicate member

/-- The rotation moves the current buffer behind the full ones and starts an empty
one. -/
theorem updateCurBuffer_spec (l : AsyncLogger) (pooled : Pooled l) :
    Pooled l.updateCurBuffer ∧ l.updateCurBuffer.currentBuffer = FixedBuffer.create blockSize ∧
      l.updateCurBuffer.fullBuffers = l.fullBuffers ++ [l.currentBuffer] ∧
      l.updateCurBuffer.appends = l.appends ∧ l.updateCurBuffer.accepted = l.accepted := by
  have empties := pooled.empties
  have fulls : ∀ b ∈ l.fullBuffers ++ [l.currentBuffer], b.capacity = blockSize := by
    intro b member
    rcases List.mem_append.mp member with old | new
    · exact pooled.fulls b old
    · rw [List.mem_singleton.mp new]
      exact pooled.current
  unfold updateCurBuffer
  cases pool : l.emptyBuffers with
  | nil =>
      refine ⟨⟨rfl, fulls, ?_⟩, rfl, rfl, rfl, rfl⟩
      rw [pool] at empties
      exact empties
  | cons first rest =>
      rw [pool] at empties
      have fresh := empties first List.mem_cons_self
      refine ⟨⟨?_, fulls, ?_⟩, fresh, rfl, rfl, rfl⟩
      · rw [fresh]
        rfl
      · intro b member
        exact empties b (List.mem_cons_of_mem first member)

theorem updateCurBuffer_waiting (l : AsyncLogger) (pooled : Pooled l) :
    l.updateCurBuffer.waiting = l.waiting := by
  obtain ⟨_, current, full, _⟩ := updateCurBuffer_spec l pooled
  rw [waiting, current, full, waiting, List.flatMap_append, List.flatMap_singleton]
  exact List.append_nil _

theorem put_pooled (l : AsyncLogger) (text : Bytes) (pooled : Pooled l) : Pooled (l.put text) :=
  ⟨(FixedBuffer.append_capacity _ _).trans pooled.current, pooled.fulls, pooled.empties⟩

theorem put_current (l : AsyncLogger) (text : Bytes) :
    (l.put text).currentBuffer = l.currentBuffer.append ⟨l.appends, text⟩ := rfl

theorem put_waiting (l : AsyncLogger) (text : Bytes) :
    (l.put text).waiting = l.waiting ++
      if text.length < l.currentBuffer.avail then [⟨l.appends, text⟩] else [] := by
  have appended := FixedBuffer.append_lines l.currentBuffer ⟨l.appends, text⟩
  simp only [waiting, put, appended, FixedBuffer.accepts, decide_eq_true_eq, List.append_assoc]

/-- The line finds room: in a new buffer when the message does not fit the current
one, and else in what is left of that. -/
def Room (l : AsyncLogger) (text : Bytes) (len : Nat) : Prop :=
  if l.currentBuffer.avail < len then text.length < blockSize
  else text.length < l.currentBuffer.avail

instance (l : AsyncLogger) (text : Bytes) (len : Nat) : Decidable (Room l text len) :=
  inferInstanceAs (Decidable (if l.currentBuffer.avail < len then text.length < blockSize
    else text.length < l.currentBuffer.avail))

/-- The new state is that of the possible rotation with the line put in. -/
theorem append_eq (l : AsyncLogger) (now : TimeStamp) (logline : Bytes) (len : Nat)
    (level : Level) :
    l.append now logline len level =
      (if l.currentBuffer.avail < len then l.updateCurBuffer else l).put
        (trueLogLine now logline level) := by
  unfold append
  dsimp only
  split
  · rfl
  · rfl

theorem append_pooled (l : AsyncLogger) (now : TimeStamp) (logline : Bytes) (len : Nat)
    (level : Level) (pooled : Pooled l) : Pooled (l.append now logline len level) := by
  rw [append_eq]
  apply put_pooled
  split
  · exact (updateCurBuffer_spec l pooled).1
  · exact pooled

theorem append_waiting (l : AsyncLogger) (now : TimeStamp) (logline : Bytes) (len : Nat)
    (level : Level) (pooled : Pooled l) :
    (l.append now logline len level).waiting = l.waiting ++
      if Room l (trueLogLine now logline level) len then
        [⟨l.appends, trueLogLine now logline level⟩] else [] := by
  rw [append_eq, put_waiting]
  unfold Room
  split
  · obtain ⟨_, current, _, appends, _⟩ := updateCurBuffer_spec l pooled
    rw [updateCurBuffer_waiting l pooled, current, appends]
    rfl
  · rfl

/-- The lines accepted and those waiting grow by the same. -/
theorem append_accepted (l : AsyncLogger) (now : TimeStamp) (logline : Bytes) (len : Nat)
    (level : Level) (pooled : Pooled l) :
    ∃ new, (l.append now logline len level).waiting = l.waiting ++ new ∧
      (l.append now logline len level).accepted = l.accepted ++ new := by
  have put_accepted (m : AsyncLogger) (text : Bytes) : ∃ new,
      (m.put text).waiting = m.waiting ++ new ∧ (m.put text).accepted = m.accepted ++ new := by
    refine ⟨if text.length < m.currentBuffer.avail then [⟨m.appends, text⟩] else [],
      put_waiting m text, ?_⟩
    simp only [put, FixedBuffer.accepts, decide_eq_true_eq]
  rw [append_eq]
  obtain ⟨new, waits, takes⟩ := put_accepted
    (if l.currentBuffer.avail < len then l.updateCurBuffer else l) (trueLogLine now logline level)
  refine ⟨new, ?_, ?_⟩
  · rw [waits]
    split
    · rw [updateCurBuffer_waiting l pooled]
    · rfl
  · rw [takes]
    split
    · rw [(updateCurBuffer_spec l pooled).2.2.2.2]
    · rfl

theorem put_fullBuffers (l : AsyncLogger) (text : Bytes) :
    (l.put text).fullBuffers = l.fullBuffers := rfl

theorem put_keeps (l : AsyncLogger) (text : Bytes) :
    ∃ new, (l.put text).currentBuffer.lines = l.currentBuffer.lines ++ new := by
  rw [put_current, FixedBuffer.append_lines]
  exact ⟨_, rfl⟩

/-- No line leaves the buffers by an append: a rotation moves the current buffer
behind the full ones. -/
theorem append_keeps (l : AsyncLogger) (now : TimeStamp) (logline : Bytes) (len : Nat)
    (level : Level) (pooled : Pooled l) :
    ((l.append now logline len level).fullBuffers = l.fullBuffers ∧
      ∃ new, (l.append now logline len level).currentBuffer.lines =
        l.currentBuffer.lines ++ new) ∨
    (l.append now logline len level).fullBuffers = l.fullBuffers ++ [l.currentBuffer] := by
  rw [append_eq, put_fullBuffers]
  by_cases rotates : l.currentBuffer.avail < len
  · right
    rw [if_pos rotates, (updateCurBuffer_spec l pooled).2.2.1]
  · left
    rw [if_neg rotates]
    exact ⟨rfl, put_keeps l _⟩

end AsyncLogger
end Tundra
