import Mathlib.Data.List.Basic
import Tundra.Net.TcpSend

set_option autoImplicit false

/- A send made by a foreign thread and carried out later by the loop, against the
same send made on the loop thread at that later moment. The lengths are those that an int
holds. -/
namespace Tundra.CrossThreadSend

open TcpConnection

theorem readFrom_eq_iff (p q : Nat → UInt8) (start n : Nat) :
    readFrom p start n = readFrom q start n ↔ ∀ i < n, p (start + i) = q (start + i) := by
  simp only [readFrom, List.map_inj_left, List.mem_range]

/-- Bytes at the same place of two equal messages agree. -/
theorem readFrom_inside (p q : Nat → UInt8) (len start n : Nat)
    (same : readFrom p 0 len = readFrom q 0 len) (inside : start + n ≤ len) :
    readFrom p start n = readFrom q start n := by
  rw [readFrom_eq_iff] at same ⊢
  intro i bound
  have equal := same (start + i) (by omega)
  simpa only [Nat.zero_add] using equal

/-- The bytes sendInLoop can read: the message when the output is idle, as many
bytes behind it when it is not. -/
def readable (c : TcpConnection) (p : Nat → UInt8) (len : Nat) : Bytes :=
  if c.idle then readFrom p 0 len else readFrom p len len

theorem sendInLoop_locality (c : TcpConnection) (p q : Nat → UInt8) (len : Nat)
    (answer : WriteResult) (same : readable c p len = readable c q len) :
    c.sendInLoop p len answer = c.sendInLoop q len answer := by
  unfold readable at same
  by_cases free : c.idle = true
  · rw [if_pos free, if_pos free] at same
    cases answer with
    | accepted n =>
        have taken := readFrom_inside p q len 0 (min n len) same (by omega)
        have rest := readFrom_inside p q len (min n len) (len - min n len) same (by omega)
        simp only [sendInLoop, directWrite, free, ↓reduceIte, taken, queueRest, rest]
    | failed errno => simp only [sendInLoop, directWrite, free, ↓reduceIte, queueRest, same]
  · rw [if_neg free, if_neg free] at same
    simp only [sendInLoop, directWrite, free, Bool.false_eq_true, ↓reduceIte, queueRest, same]

/-- A kernel that takes nothing sends all of it through the buffer. -/
theorem contribution_blocked (c : TcpConnection) (p : Nat → UInt8) (len : Nat) :
    c.contribution p len (.accepted 0) = readable c p len := rfl

theorem readable_of_same (c : TcpConnection) (p q : Nat → UInt8) (len : Nat)
    (live : c.state ≠ .kDisconnected)
    (same : c.sendInLoop p len (.accepted 0) = c.sendInLoop q len (.accepted 0)) :
    readable c p len = readable c q len := by
  obtain ⟨r, first, _, stream, _⟩ := sendInLoop_spec c p len (.accepted 0) live
  obtain ⟨r', second, _, stream', _⟩ := sendInLoop_spec c q len (.accepted 0) live
  have equal : r = r' := by rw [first, second, Option.some.injEq] at same; exact same
  subst equal
  rw [← contribution_blocked, ← contribution_blocked]
  exact List.append_cancel_left (stream.symm.trans stream')

/-- The pointer and the length a queued functor hands to sendInLoop. -/
def boundStart (later : Memory) (behind : Nat → UInt8) : Bound → Nat → UInt8
  | .pointer msg _ => later.pointer msg
  | .string msg => pointerInto msg behind

def boundLength : Bound → Nat
  | .pointer _ len => len
  | .string msg => msg.length

theorem runSend_eq (c : TcpConnection) (later : Memory) (behind : Nat → UInt8)
    (answer : WriteResult) (bound : Bound) :
    c.runSend later behind answer bound =
      c.sendInLoop (boundStart later behind bound) (boundLength bound) answer := by
  cases bound <;> rfl

theorem boundLength_bound (arg : SendArg) : boundLength arg.bound = arg.length := by
  cases arg with
  | pointer msg len => rfl
  | string cstr size => rfl
  | buffer buf =>
      have bounded := buf.writer_le
      simp only [SendArg.bound, boundLength, SendArg.length, List.length_take, Buffer.readableBytes]
      omega

/-- A Buffer argument has been left empty. -/
def Emptied : SendArg → Prop
  | .buffer buf => buf.content = []
  | .pointer _ _ | .string _ _ => True

theorem left_emptied (arg : SendArg) : Emptied arg.left := by
  cases arg with
  | pointer msg len => trivial
  | string cstr size => trivial
  | buffer buf => exact buf.retrieveAll_content

/-- The memory of the moment the functor runs, with the message as it was at the
call. A Buffer argument brings its own bytes. -/
def restored (called later : Memory) : SendArg → Memory
  | .pointer msg len => fun a => if msg ≤ a ∧ a < msg + len then called a else later a
  | .string cstr size => fun a => if cstr ≤ a ∧ a < cstr + size then called a else later a
  | .buffer _ => later

/-- A foreign thread calls send on `c₀` while the memory is `called`, and the functor
runs on `c` when the memory is `later`. Whatever the kernel answers, and whatever
lies behind the Buffer's storage and behind the functor's string, the outcome is
that of a send on the loop thread to `c` with the message as it was at the call. -/
def SameEffect (c₀ c : TcpConnection) (called later : Memory) (arg : SendArg) : Prop :=
  ∀ around first, ∃ bound left,
    c₀.sendArg called around false first arg =
      some ((c₀, [.queueInLoop (.sendInLoop bound)]), left) ∧ Emptied left ∧
    ∀ behind behind' answer, ∃ r left',
      c.sendArg (restored called later arg) behind true answer arg = some (r, left') ∧
        Emptied left' ∧ c.runSend later behind' answer bound = some r

/-- The message is empty; or the functor still finds the bytes of the call; or, for
an argument in the caller's memory, other output is waiting when the functor runs
and the message is not looked at. A Buffer's bytes are found when they are the
first of its storage, and then the output must be idle. -/
def Faithful (c : TcpConnection) (called later : Memory) : SendArg → Prop
  | .pointer msg len =>
      len = 0 ∨ c.idle = false ∨
        readFrom (later.pointer msg) 0 len = readFrom (called.pointer msg) 0 len
  | .string cstr size =>
      size = 0 ∨ c.idle = false ∨
        readFrom (later.pointer cstr) 0 size = readFrom (called.pointer cstr) 0 size
  | .buffer buf =>
      buf.readableBytes = 0 ∨
        (c.idle = true ∧ buf.buffer.take buf.readableBytes = buf.content)

/-- Both sends read the same bytes, whatever lies behind. -/
def SameReads (c : TcpConnection) (called later : Memory) (arg : SendArg) : Prop :=
  ∀ behind behind', readable c (boundStart later behind' arg.bound) arg.length =
    readable c (arg.start (restored called later arg) behind) arg.length

theorem sameEffect_iff_sameReads (c₀ c : TcpConnection) (called later : Memory) (arg : SendArg)
    (connected₀ : c₀.state = .kConnected) (connected : c.state = .kConnected) :
    SameEffect c₀ c called later arg ↔ SameReads c called later arg := by
  have live : c.state ≠ .kDisconnected := by rw [connected]; decide
  have foreign (around first) := sendArg_foreign c₀ called around first arg connected₀
  have inLoop (behind answer) :=
    sendArg_inLoop c (restored called later arg) behind answer arg connected
  constructor
  · intro same behind behind'
    obtain ⟨bound, left, queued, _, effect⟩ := same (fun _ => 0) (.accepted 0)
    have equal : bound = arg.bound := by
      rw [foreign] at queued
      simp only [Option.some.injEq, Prod.mk.injEq, List.cons.injEq, Effect.queueInLoop.injEq,
        Functor.sendInLoop.injEq] at queued
      exact queued.1.2.1.symm
    obtain ⟨r, left', sent, _, ran⟩ := effect behind behind' (.accepted 0)
    rw [equal, runSend_eq, boundLength_bound] at ran
    apply readable_of_same c _ _ _ live
    cases direct : c.sendInLoop (arg.start (restored called later arg) behind) arg.length
        (.accepted 0) with
    | none => simp [inLoop, direct] at sent
    | some out =>
        simp only [inLoop, direct, Option.map_some, Option.some.injEq, Prod.mk.injEq] at sent
        rw [ran, sent.1]
  · intro same around first
    refine ⟨arg.bound, arg.left, foreign around first, left_emptied arg, ?_⟩
    intro behind behind' answer
    obtain ⟨r, sent, _⟩ := sendInLoop_spec c
      (arg.start (restored called later arg) behind) arg.length answer live
    refine ⟨r, arg.left, ?_, left_emptied arg, ?_⟩
    · rw [inLoop, sent, Option.map_some]
    · rw [runSend_eq, boundLength_bound, ← sent]
      exact sendInLoop_locality c _ _ _ answer (same behind behind')

/-- For a message in the caller's memory: off the idle path both sends read behind
the message, where the restored memory is the later one. -/
theorem memory_reads_iff (c : TcpConnection) (called later : Memory) (msg len : Nat) :
    readable c (later.pointer msg) len =
        readable c (Memory.pointer
          (fun a => if msg ≤ a ∧ a < msg + len then called a else later a) msg) len ↔
      len = 0 ∨ c.idle = false ∨
        readFrom (later.pointer msg) 0 len = readFrom (called.pointer msg) 0 len := by
  have inside : readFrom (Memory.pointer
      (fun a => if msg ≤ a ∧ a < msg + len then called a else later a) msg) 0 len =
      readFrom (called.pointer msg) 0 len := by
    rw [readFrom_eq_iff]
    intro i bound
    simp only [Memory.pointer]
    rw [if_pos (by omega)]
  have behind : readFrom (Memory.pointer
      (fun a => if msg ≤ a ∧ a < msg + len then called a else later a) msg) len len =
      readFrom (later.pointer msg) len len := by
    rw [readFrom_eq_iff]
    intro i bound
    simp only [Memory.pointer]
    rw [if_neg (by omega)]
  unfold readable
  rw [inside, behind]
  cases free : c.idle with
  | true =>
      simp only [↓reduceIte, Bool.true_eq_false, false_or]
      constructor
      · exact Or.inr
      · rintro (zero | same)
        · rw [zero, readFrom_zero, readFrom_zero]
        · exact same
  | false => simp only [Bool.false_eq_true, ↓reduceIte, true_or, or_true]

/-- For a Buffer: off the idle path the functor reads behind its own string, where
any byte may lie. -/
theorem buffer_reads_iff (c : TcpConnection) (called later : Memory) (buf : Buffer) :
    SameReads c called later (.buffer buf) ↔
      buf.readableBytes = 0 ∨
        (c.idle = true ∧ buf.buffer.take buf.readableBytes = buf.content) := by
  have bounded := buf.writer_le
  have size : (buf.buffer.take buf.readableBytes).length = buf.readableBytes := by
    simp only [List.length_take, Buffer.readableBytes]
    omega
  have captured (behind : Nat → UInt8) :
      readFrom (pointerInto (buf.buffer.take buf.readableBytes) behind) 0 buf.readableBytes =
        buf.buffer.take buf.readableBytes := by
    rw [readFrom_pointerInto _ _ _ (by omega), List.take_take, Nat.min_self]
  have message (behind : Nat → UInt8) :=
    SendArg.readFrom_start (restored called later (.buffer buf)) behind (.buffer buf)
  simp only [SendArg.length, SendArg.content] at message
  simp only [SameReads, SendArg.length, SendArg.bound, boundStart, readable]
  cases free : c.idle with
  | true =>
      simp only [↓reduceIte, captured, message, true_and]
      constructor
      · intro same
        exact Or.inr (same (fun _ => 0) (fun _ => 0))
      · rintro (zero | same) _ _
        · rw [(Buffer.readableBytes_eq_zero buf).mp zero, zero, List.take_zero]
        · exact same
  | false =>
      simp only [Bool.false_eq_true, ↓reduceIte, false_and, or_false]
      constructor
      · intro same
        by_contra some
        have first (behind' : UInt8) := (readFrom_eq_iff _ _ _ _).mp
          (same (fun _ => 0) (fun _ => behind')) 0 (by omega)
        have beyond : (buf.buffer.take buf.readableBytes)[buf.readableBytes]? = none := by
          rw [List.getElem?_eq_none_iff]
          omega
        simp only [Nat.add_zero, pointerInto, beyond, Option.getD_none] at first
        have clash := (first 0).trans (first 1).symm
        revert clash
        decide
      · intro zero _ _
        rw [zero, readFrom_zero, readFrom_zero]

theorem sameReads_iff_faithful (c : TcpConnection) (called later : Memory) (arg : SendArg) :
    SameReads c called later arg ↔ Faithful c called later arg := by
  cases arg with
  | pointer msg len =>
      rw [Faithful, ← memory_reads_iff]
      exact ⟨fun same => same (fun _ => 0) (fun _ => 0), fun same _ _ => same⟩
  | string cstr size =>
      rw [Faithful, ← memory_reads_iff]
      exact ⟨fun same => same (fun _ => 0) (fun _ => 0), fun same _ _ => same⟩
  | buffer buf => exact buffer_reads_iff c called later buf

/-- A send from a foreign thread has the effect of the same send on the loop thread
exactly when its message is still found when the functor runs. -/
theorem crossThreadSend_same_iff (c₀ c : TcpConnection) (called later : Memory) (arg : SendArg)
    (connected₀ : c₀.state = .kConnected) (connected : c.state = .kConnected) :
    SameEffect c₀ c called later arg ↔ Faithful c called later arg :=
  (sameEffect_iff_sameReads c₀ c called later arg connected₀ connected).trans
    (sameReads_iff_faithful c called later arg)

/-- B is still in place when the functor runs. -/
theorem crossThreadSend_same_letters :
    SameEffect (established [99] 5) (established [99] 5) letters letters (.string 1 1) :=
  (crossThreadSend_same_iff (established [99] 5) (established [99] 5) letters letters (.string 1 1)
    rfl rfl).mpr (Or.inr (Or.inr rfl))

theorem letter_fits : ([65] : Bytes).length ≤ Buffer.fresh.writableBytes := by
  decide +kernel

/-- The caller overwrites its letter before the functor runs, or sends a Buffer whose
letter stands behind the prepend area. -/
theorem crossThreadSend_differs :
    ¬ SameEffect (established [99] 5) (established [99] 5) letters (fun _ => 88) (.pointer 0 1) ∧
      ¬ SameEffect (established [99] 5) (established [99] 5) letters (fun _ => 88) (.string 0 1) ∧
      ∃ buf, Buffer.fresh.append [65] = some buf ∧
        ¬ SameEffect (established [99] 5) (established [99] 5) letters letters (.buffer buf) := by
  have effect (later arg) := (sameEffect_iff_sameReads (established [99] 5) (established [99] 5)
    letters later arg rfl rfl).trans (sameReads_iff_faithful (established [99] 5) letters later arg)
  refine ⟨?_, ?_, Buffer.fresh.copyIn [65] letter_fits, Buffer.append_of_room _ _ letter_fits, ?_⟩
  · rw [effect, Faithful]
    decide +kernel
  · rw [effect, Faithful]
    decide +kernel
  · rw [effect, Faithful]
    decide +kernel

end Tundra.CrossThreadSend
