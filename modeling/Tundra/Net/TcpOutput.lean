import Mathlib.Data.List.Basic
import Tundra.Util.BufferQueue
import Tundra.Net.TcpConnection

set_option autoImplicit false

/- What sendInLoop and handleWrite do to the bytes on their way to the socket. -/
namespace Tundra

theorem readFrom_length (msg : Nat → UInt8) (start n : Nat) :
    (readFrom msg start n).length = n := by
  simp only [readFrom, List.length_map, List.length_range]

@[simp] theorem readFrom_zero (msg : Nat → UInt8) (start : Nat) : readFrom msg start 0 = [] := rfl

theorem readFrom_append (msg : Nat → UInt8) (start m n : Nat) :
    readFrom msg start m ++ readFrom msg (start + m) n = readFrom msg start (m + n) := by
  simp only [readFrom, List.range_add, List.map_append, List.map_map, Function.comp_def,
    Nat.add_assoc]

/-- Reading a message in two parts, as a partial write does. -/
theorem readFrom_split (msg : Nat → UInt8) (k len : Nat) (part : k ≤ len) :
    readFrom msg 0 k ++ readFrom msg k (len - k) = readFrom msg 0 len := by
  have joined := readFrom_append msg 0 k (len - k)
  rwa [Nat.zero_add, Nat.add_sub_cancel' part] at joined

theorem Socket.sent_append (s t : Socket) : Socket.sent (s ++ t) = Socket.sent s ++ Socket.sent t :=
  List.flatMap_append

namespace TcpConnection

/-- The bytes the socket has taken, and those that wait in the output buffer. -/
def sent (c : TcpConnection) : Bytes := Socket.sent c.socket
def pending (c : TcpConnection) : Bytes := c.outputBuffer.content

/-- The writing flag stands for a non-empty output buffer. -/
def InSync (c : TcpConnection) : Prop := c.channel.isWriting = true ↔ c.pending ≠ []

/-- The connection with its output side blanked: the socket, the output buffer,
the interest in writing and the mark that the loop knows the channel. -/
def inputSide (c : TcpConnection) : TcpConnection :=
  { c with
    socket := []
    outputBuffer := Buffer.fresh
    channel := { c.channel with events := ⟨c.channel.events.read, false⟩, addedToLoop := true } }

/-- Only the output side of the connection differs. -/
def OutputOnly (c d : TcpConnection) : Prop := d.inputSide = c.inputSide

theorem OutputOnly.trans {c d e : TcpConnection} (first : OutputOnly c d)
    (second : OutputOnly d e) : OutputOnly c e :=
  Eq.trans second first

theorem OutputOnly.state {c d : TcpConnection} (frame : OutputOnly c d) : d.state = c.state :=
  congrArg (·.state) frame

theorem OutputOnly.name {c d : TcpConnection} (frame : OutputOnly c d) : d.name = c.name :=
  congrArg (·.name) frame

theorem OutputOnly.readInterest {c d : TcpConnection} (frame : OutputOnly c d) :
    d.channel.events.read = c.channel.events.read :=
  congrArg (·.channel.events.read) frame

@[simp] theorem wrote_sent (c : TcpConnection) (taken : Bytes) :
    (c.wrote taken).sent = c.sent ++ taken := by
  simp only [sent, wrote, Socket.sent_append]
  simp only [Socket.sent, List.flatMap_cons, List.flatMap_nil, SocketOp.taken, List.append_nil]

theorem wrote_outputOnly (c : TcpConnection) (taken : Bytes) : OutputOnly c (c.wrote taken) :=
  rfl

theorem idle_iff (c : TcpConnection) :
    c.idle = true ↔ c.channel.isWriting = false ∧ c.pending = [] := by
  simp only [idle, Bool.and_eq_true, Bool.not_eq_true', beq_iff_eq, Buffer.readableBytes_eq_zero,
    pending]

theorem directWrite_remaining (c : TcpConnection) (msg : Nat → UInt8) (len : Nat)
    (answer : WriteResult) : (c.directWrite msg len answer).remaining ≤ len := by
  unfold directWrite
  split
  · cases answer with
    | accepted n => exact Nat.sub_le _ _
    | failed errno => exact Nat.le_refl _
  · exact Nat.le_refl _

theorem directWrite_outputOnly (c : TcpConnection) (msg : Nat → UInt8) (len : Nat)
    (answer : WriteResult) : OutputOnly c (c.directWrite msg len answer).conn := by
  unfold directWrite
  split
  · cases answer with
    | accepted n => exact wrote_outputOnly c _
    | failed errno => exact wrote_outputOnly c _
  · exact rfl

/-- The direct write leaves the buffer and the interest set alone. -/
theorem directWrite_kept (c : TcpConnection) (msg : Nat → UInt8) (len : Nat)
    (answer : WriteResult) :
    (c.directWrite msg len answer).conn.outputBuffer = c.outputBuffer ∧
      (c.directWrite msg len answer).conn.channel = c.channel := by
  unfold directWrite
  split
  · cases answer <;> exact ⟨rfl, rfl⟩
  · exact ⟨rfl, rfl⟩

theorem queueRest_spec (a : Attempt) (msg : Nat → UInt8) :
    ∃ r, queueRest a msg = some r ∧ r.1.socket = a.conn.socket ∧
      r.1.pending = a.conn.pending ++ readFrom msg a.nwrote a.remaining ∧
      r.1.channel.isWriting = true ∧ OutputOnly a.conn r.1 := by
  obtain ⟨out, appended, content⟩ :=
    Buffer.append_content a.conn.outputBuffer (readFrom msg a.nwrote a.remaining)
  simp only [queueRest, appended, Option.map_some]
  split
  · rename_i writing
    exact ⟨_, rfl, rfl, content, writing, rfl⟩
  · exact ⟨_, rfl, rfl, content, rfl, rfl⟩

/-- The bytes sendInLoop adds to the stream. Off the idle path they are read from
behind the message, since nwrote still holds its initial value len. -/
def contribution (c : TcpConnection) (msg : Nat → UInt8) (len : Nat) (answer : WriteResult) :
    Bytes :=
  if c.idle then
    match answer with
    | .accepted _ => readFrom msg 0 len
    | .failed errno => if errno.fatal then [] else readFrom msg 0 len
  else readFrom msg len len

/-- What the direct write took and what it left over make up the contribution. -/
theorem directWrite_stream (c : TcpConnection) (msg : Nat → UInt8) (len : Nat)
    (answer : WriteResult) :
    (c.directWrite msg len answer).conn.sent ++ c.pending ++
        (if (c.directWrite msg len answer).faultError then []
          else readFrom msg (c.directWrite msg len answer).nwrote
            (c.directWrite msg len answer).remaining) =
      c.sent ++ c.pending ++ c.contribution msg len answer := by
  unfold directWrite contribution
  by_cases free : c.idle = true
  · have empty : c.pending = [] := ((idle_iff c).mp free).2
    rw [if_pos free, if_pos free, empty, List.append_nil, List.append_nil]
    cases answer with
    | accepted n =>
        simp only [wrote_sent, Bool.false_eq_true, ↓reduceIte, List.append_assoc]
        rw [readFrom_split msg (min n len) len (Nat.min_le_right _ _)]
    | failed errno => cases fatal : errno.fatal <;> simp [fatal]
  · simp [free]

theorem InSync.of_same {c d : TcpConnection} (sync : c.InSync)
    (buffer : d.outputBuffer = c.outputBuffer) (channel : d.channel = c.channel) : d.InSync := by
  simpa only [InSync, pending, buffer, channel] using sync

theorem sendInLoop_spec (c : TcpConnection) (msg : Nat → UInt8) (len : Nat)
    (answer : WriteResult) (live : c.state ≠ .kDisconnected) :
    ∃ r, c.sendInLoop msg len answer = some r ∧ OutputOnly c r.1 ∧
      r.1.sent ++ r.1.pending = c.sent ++ c.pending ++ c.contribution msg len answer ∧
      (c.InSync → r.1.InSync) := by
  have stream := directWrite_stream c msg len answer
  have framed := directWrite_outputOnly c msg len answer
  obtain ⟨sameBuffer, sameChannel⟩ := directWrite_kept c msg len answer
  have samePending : (c.directWrite msg len answer).conn.pending = c.pending :=
    congrArg Buffer.content sameBuffer
  simp only [sendInLoop, live, ↓reduceIte, directWrite_remaining c msg len answer]
  generalize c.directWrite msg len answer = a at *
  split
  · rename_i rest
    obtain ⟨r, queued, socket, pending, writing, frame⟩ := queueRest_spec a msg
    refine ⟨r, queued, framed.trans frame, ?_, ?_⟩
    · rw [← stream, rest.1, show r.1.sent = a.conn.sent from congrArg Socket.sent socket, pending,
        samePending]
      simp only [Bool.false_eq_true, ↓reduceIte, List.append_assoc]
    · intro _
      refine ⟨fun _ empty => ?_, fun _ => writing⟩
      have none : (readFrom msg a.nwrote a.remaining).length = 0 := by
        rw [pending] at empty
        rw [(List.append_eq_nil_iff.mp empty).2, List.length_nil]
      rw [readFrom_length] at none
      omega
  · rename_i nothing
    refine ⟨_, rfl, framed, ?_, fun sync => sync.of_same sameBuffer sameChannel⟩
    rw [← stream, samePending]
    cases fault : a.faultError with
    | true => simp only [↓reduceIte, List.append_nil]
    | false =>
        have zero : a.remaining = 0 := by
          by_contra some
          exact nothing ⟨fault, Nat.pos_of_ne_zero some⟩
        rw [zero, readFrom_zero, if_neg (by decide), List.append_nil]

theorem shutdownInLoop_outputOnly (c : TcpConnection) : OutputOnly c c.shutdownInLoop := by
  unfold shutdownInLoop
  split
  · exact rfl
  · exact rfl

/-- The half-close neither takes bytes nor touches the buffer or the interest set. -/
theorem shutdownInLoop_kept (c : TcpConnection) :
    c.shutdownInLoop.sent = c.sent ∧ c.shutdownInLoop.outputBuffer = c.outputBuffer ∧
      c.shutdownInLoop.channel = c.channel := by
  unfold shutdownInLoop
  split
  · exact ⟨rfl, rfl, rfl⟩
  · refine ⟨?_, rfl, rfl⟩
    simp [sent, Socket.sent, SocketOp.taken]

theorem drained_spec (c : TcpConnection) :
    OutputOnly c c.drained.1 ∧ c.drained.1.sent = c.sent ∧
      c.drained.1.outputBuffer = c.outputBuffer ∧ c.drained.1.channel.isWriting = false := by
  unfold drained
  dsimp only
  split
  · obtain ⟨taken, buffer, channel⟩ :=
      shutdownInLoop_kept (c.updateChannel c.channel.disableWriting).1
    refine ⟨?_, taken, buffer, by rw [channel]; rfl⟩
    have off : OutputOnly c (c.updateChannel c.channel.disableWriting).1 :=
      rfl
    exact off.trans (shutdownInLoop_outputOnly _)
  · exact ⟨rfl, rfl, rfl, rfl⟩

/-- handleWrite empties the output buffer. -/
def Drains (c : TcpConnection) : WriteResult → Prop
  | .accepted n => c.channel.isWriting = true ∧ 0 < c.outputBuffer.readableBytes ∧
      c.outputBuffer.readableBytes ≤ n
  | .failed _ => False

instance (c : TcpConnection) : (answer : WriteResult) → Decidable (c.Drains answer)
  | .accepted n => inferInstanceAs (Decidable (c.channel.isWriting = true ∧
      0 < c.outputBuffer.readableBytes ∧ c.outputBuffer.readableBytes ≤ n))
  | .failed _ => inferInstanceAs (Decidable False)

/-- The connection after a write that took `k` of the waiting bytes and left `out`. -/
def took (c : TcpConnection) (k : Nat) (out : Buffer) : TcpConnection :=
  { c.wrote (c.outputBuffer.content.take k) with outputBuffer := out }

/-- What handleWrite can do: nothing when the channel is not writing; nothing but the
call of write when no byte is taken; else the bytes that were taken leave the buffer,
and if none are left the channel stops writing. -/
theorem handleWrite_cases (c : TcpConnection) (answer : WriteResult) :
    (c.channel.isWriting = false ∧ c.handleWrite answer = some (c, [])) ∨
    (c.channel.isWriting = true ∧ ¬ c.Drains answer ∧
      c.handleWrite answer = some (c.wrote [], [])) ∨
    (∃ k out, c.channel.isWriting = true ∧ ¬ c.Drains answer ∧
      out.content = c.pending.drop k ∧ out.content ≠ [] ∧
      c.handleWrite answer = some (c.took k out, [])) ∨
    ∃ k out, c.channel.isWriting = true ∧ c.Drains answer ∧
      out.content = c.pending.drop k ∧ out.content = [] ∧
      c.handleWrite answer = some (c.took k out).drained := by
  unfold handleWrite
  by_cases writing : c.channel.isWriting = true
  · right
    rw [if_pos writing]
    cases answer with
    | failed errno => exact Or.inl ⟨writing, id, rfl⟩
    | accepted n =>
        dsimp only
        generalize taken : min n c.outputBuffer.readableBytes = k
        by_cases some : 0 < k
        · obtain ⟨out, retrieved, content⟩ :=
            Buffer.retrieve_content c.outputBuffer k (by omega)
          have left : out.readableBytes = c.outputBuffer.readableBytes - k := by
            rw [← Buffer.content_length, content, List.length_drop, Buffer.content_length]
          rw [if_pos some, show (c.wrote (c.outputBuffer.content.take k)).outputBuffer =
            c.outputBuffer from rfl, retrieved, Option.map_some]
          by_cases empty : out.readableBytes = 0
          · rw [if_pos empty]
            have drains : c.Drains (.accepted n) := ⟨writing, by omega, by omega⟩
            have nothing := (Buffer.readableBytes_eq_zero out).mp empty
            exact Or.inr (Or.inr ⟨k, out, writing, drains, content, nothing, rfl⟩)
          · rw [if_neg empty]
            have stays : ¬ c.Drains (.accepted n) := by
              rintro ⟨_, _, all⟩
              omega
            have more : out.content ≠ [] := by
              rw [ne_eq, ← Buffer.readableBytes_eq_zero]
              exact empty
            exact Or.inr (Or.inl ⟨k, out, writing, stays, content, more, rfl⟩)
        · have zero : k = 0 := by omega
          subst zero
          have stays : ¬ c.Drains (.accepted n) := by
            rintro ⟨_, _, all⟩
            omega
          exact Or.inl ⟨writing, stays, rfl⟩
  · rw [if_neg writing]
    exact Or.inl ⟨by simpa using writing, rfl⟩

theorem took_stream (c : TcpConnection) (k : Nat) (out : Buffer)
    (content : out.content = c.pending.drop k) :
    (c.took k out).sent ++ (c.took k out).pending = c.sent ++ c.pending := by
  have socket : (c.took k out).sent = (c.wrote (c.outputBuffer.content.take k)).sent := rfl
  have buffer : (c.took k out).pending = out.content := rfl
  rw [socket, buffer, wrote_sent, content, List.append_assoc, pending, List.take_append_drop]

/-- handleWrite moves a prefix of the buffer to the socket. -/
theorem handleWrite_spec (c : TcpConnection) (answer : WriteResult) :
    ∃ r, c.handleWrite answer = some r ∧ OutputOnly c r.1 ∧
      r.1.sent ++ r.1.pending = c.sent ++ c.pending ∧ (c.InSync → r.1.InSync) := by
  rcases handleWrite_cases c answer with ⟨_, done⟩ | ⟨_, _, done⟩ |
    ⟨k, out, writing, _, content, more, done⟩ | ⟨k, out, _, _, content, empty, done⟩
  · exact ⟨_, done, rfl, rfl, id⟩
  · refine ⟨_, done, wrote_outputOnly c [], ?_, fun sync => sync.of_same rfl rfl⟩
    rw [wrote_sent, List.append_nil]
    rfl
  · refine ⟨_, done, rfl, took_stream c k out content, ?_⟩
    intro _
    exact ⟨fun _ => more, fun _ => writing⟩
  · obtain ⟨kept, taken, unread, off⟩ := drained_spec (c.took k out)
    have left : (c.took k out).drained.1.pending = [] := by
      rw [pending, unread]
      exact empty
    have framed : OutputOnly c (c.took k out) := rfl
    refine ⟨_, done, framed.trans kept, ?_, ?_⟩
    · rw [taken, pending, unread]
      exact took_stream c k out content
    · intro _
      unfold InSync
      rw [off, left]
      simp

/-- An effect that only queues a user callback or tells the poller. -/
def passive : Effect → Prop
  | .queueInLoop .writeCompleteCallback | .queueInLoop (.highWaterMarkCallback _) => True
  | .updateChannel _ => True
  | _ => False

theorem directWrite_passive (c : TcpConnection) (msg : Nat → UInt8) (len : Nat)
    (answer : WriteResult) : ∀ e ∈ (c.directWrite msg len answer).effects, passive e := by
  unfold directWrite
  split
  · cases answer with
    | accepted n =>
        dsimp only
        split
        · simp [passive]
        · simp
    | failed errno => simp
  · simp

theorem queueRest_passive (a : Attempt) (msg : Nat → UInt8) (r : Outcome)
    (before : ∀ e ∈ a.effects, passive e) (queued : queueRest a msg = some r) :
    ∀ e ∈ r.2, passive e := by
  obtain ⟨out, appended, _⟩ :=
    Buffer.append_content a.conn.outputBuffer (readFrom msg a.nwrote a.remaining)
  simp only [queueRest, appended, Option.map_some, Option.some.injEq] at queued
  subst queued
  have alarms (p : Prop) [Decidable p] (len : Nat) (e : Effect)
      (member : e ∈ if p then [Effect.queueInLoop (.highWaterMarkCallback len)] else []) :
      passive e := by
    split at member
    · rw [List.mem_singleton.mp member]
      trivial
    · cases member
  intro e member
  split at member
  · rcases List.mem_append.mp member with old | alarm
    · exact before e old
    · exact alarms _ _ e alarm
  · rcases List.mem_append.mp member with early | update
    · rcases List.mem_append.mp early with old | alarm
      · exact before e old
      · exact alarms _ _ e alarm
    · rw [List.mem_singleton.mp update]
      trivial

theorem sendInLoop_passive (c : TcpConnection) (msg : Nat → UInt8) (len : Nat)
    (answer : WriteResult) (r : Outcome) (done : c.sendInLoop msg len answer = some r) :
    ∀ e ∈ r.2, passive e := by
  unfold sendInLoop at done
  split at done
  · cases done
    simp
  · dsimp only at done
    rw [if_pos (directWrite_remaining c msg len answer)] at done
    split at done
    · exact queueRest_passive _ msg r (directWrite_passive c msg len answer) done
    · cases done
      exact directWrite_passive c msg len answer

theorem drained_passive (c : TcpConnection) : ∀ e ∈ c.drained.2, passive e := by
  intro e member
  rcases List.mem_append.mp member with update | callback
  · rw [List.mem_singleton.mp update]
    trivial
  · split at callback
    · rw [List.mem_singleton.mp callback]
      trivial
    · cases callback

theorem handleWrite_passive (c : TcpConnection) (answer : WriteResult) (r : Outcome)
    (done : c.handleWrite answer = some r) : ∀ e ∈ r.2, passive e := by
  rcases handleWrite_cases c answer with ⟨_, same⟩ | ⟨_, _, same⟩ |
    ⟨k, out, _, _, _, _, same⟩ | ⟨k, out, _, _, _, _, same⟩
  all_goals
    rw [same, Option.some.injEq] at done
    subst done
  · simp
  · simp
  · simp
  · exact drained_passive _

/-- How often socket_->shutdownWrite() has been executed. -/
def halfCloses (c : TcpConnection) : Nat := c.socket.count .shutdownWrite

@[simp] theorem wrote_halfCloses (c : TcpConnection) (taken : Bytes) :
    (c.wrote taken).halfCloses = c.halfCloses := by
  simp [halfCloses, wrote, List.count_append]

theorem sendInLoop_halfCloses (c : TcpConnection) (msg : Nat → UInt8) (len : Nat)
    (answer : WriteResult) (r : Outcome) (done : c.sendInLoop msg len answer = some r) :
    r.1.halfCloses = c.halfCloses := by
  have direct : (c.directWrite msg len answer).conn.halfCloses = c.halfCloses := by
    unfold directWrite
    split
    · cases answer <;> exact wrote_halfCloses c _
    · rfl
  unfold sendInLoop at done
  split at done
  · cases done
    rfl
  · dsimp only at done
    split at done
    · split at done
      · obtain ⟨r', queued, socket, _⟩ := queueRest_spec (c.directWrite msg len answer) msg
        rw [queued, Option.some.injEq] at done
        rw [← done, ← direct]
        exact congrArg (List.count SocketOp.shutdownWrite) socket
      · cases done
        exact direct
    · cases done

theorem drained_halfCloses (c : TcpConnection) :
    c.drained.1.halfCloses = c.halfCloses + if c.state = .kDisconnecting then 1 else 0 := by
  unfold drained
  dsimp only
  split
  · rename_i closing
    rw [if_pos (show c.state = .kDisconnecting from closing)]
    unfold shutdownInLoop
    rw [if_neg (by simp [updateChannel, Channel.isWriting])]
    simp [halfCloses, updateChannel, List.count_append]
  · rename_i open'
    rw [if_neg (show c.state ≠ .kDisconnecting from open')]
    rfl

/-- The half-close by handleWrite happens at a drain of a closing connection. -/
theorem handleWrite_halfCloses (c : TcpConnection) (answer : WriteResult) (r : Outcome)
    (done : c.handleWrite answer = some r) :
    r.1.halfCloses =
        c.halfCloses + (if c.Drains answer ∧ c.state = .kDisconnecting then 1 else 0) ∧
      (c.Drains answer → r.1.pending = []) := by
  rcases handleWrite_cases c answer with ⟨silent, same⟩ | ⟨_, stays, same⟩ |
    ⟨k, out, _, stays, _, _, same⟩ | ⟨k, out, _, drains, _, empty, same⟩
  all_goals
    rw [same, Option.some.injEq] at done
    subst done
  · have stays : ¬ c.Drains answer := by
      cases answer with
      | accepted n =>
          intro drains
          rw [drains.1] at silent
          cases silent
      | failed errno => exact id
    exact ⟨by simp [stays], fun drains => absurd drains stays⟩
  · exact ⟨by simp [stays], fun drains => absurd drains stays⟩
  · refine ⟨?_, fun drains => absurd drains stays⟩
    simp only [stays, false_and, ↓reduceIte, Nat.add_zero]
    exact wrote_halfCloses c _
  · refine ⟨?_, fun _ => ?_⟩
    · rw [drained_halfCloses]
      simp only [drains, true_and]
      exact congrArg (· + _) (wrote_halfCloses c _)
    · rw [pending, (drained_spec _).2.2.1]
      exact empty

/-- What any step of the output leaves alone. -/
structure Calm (c : TcpConnection) (r : Outcome) : Prop where
  frame : OutputOnly c r.1
  sync : c.InSync → r.1.InSync
  quiet : ∀ e ∈ r.2, passive e

theorem Calm.refl (c : TcpConnection) : Calm c (c, []) :=
  ⟨rfl, id, fun _ member => by cases member⟩

theorem sendInLoop_calm (c : TcpConnection) (msg : Nat → UInt8) (len : Nat)
    (answer : WriteResult) :
    ∃ r, c.sendInLoop msg len answer = some r ∧ Calm c r ∧ r.1.halfCloses = c.halfCloses := by
  by_cases down : c.state = .kDisconnected
  · refine ⟨(c, []), ?_, Calm.refl c, rfl⟩
    rw [sendInLoop, if_pos down]
  · obtain ⟨r, done, frame, _, sync⟩ := sendInLoop_spec c msg len answer down
    have quiet := sendInLoop_passive c msg len answer r done
    exact ⟨r, done, ⟨frame, sync, quiet⟩, sendInLoop_halfCloses c msg len answer r done⟩

theorem handleWrite_calm (c : TcpConnection) (answer : WriteResult) :
    ∃ r, c.handleWrite answer = some r ∧ Calm c r := by
  obtain ⟨r, done, frame, _, sync⟩ := handleWrite_spec c answer
  exact ⟨r, done, frame, sync, handleWrite_passive c answer r done⟩

end TcpConnection
end Tundra
