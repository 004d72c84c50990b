import Mathlib.Data.List.Basic
import Tundra.Library.Machine
import Tundra.Net.OutputStream

set_option autoImplicit false

/- The two callbacks by which a producer on the loop thread is throttled. Both are queued from
sendInLoop, and one of them from handleWrite as well. -/
namespace Tundra.FlowControl

open Library TcpConnection

/-- The functors that an operation queues. -/
def callbacks (effects : List Effect) : List Functor :=
  effects.filterMap fun
    | .queueInLoop f => some f
    | .runAfterForceClose | .updateChannel _ | .removeChannel => none

/-- The connection with the functors queued so far and the number of bytes it has accepted. -/
structure Account where
  conn : TcpConnection
  queued : List Functor
  accepted : Nat

inductive Event
  | send (mem : Memory) (behind : Nat → UInt8) (arg : SendArg) (answer : WriteResult)
  | handleWrite (answer : WriteResult)
  | shutdown

/-- The length that sendInLoop gets: an int, whatever the overload was called with. -/
def intLength (arg : SendArg) : Int := (arg.length : Int).bmod (2 ^ 32)

/-- send on the loop thread. With a negative length write is asked for more than SSIZE_MAX
bytes and fails; nothing remains to be appended then. -/
def sendOnLoop (c : TcpConnection) (mem : Memory) (behind : Nat → UInt8) (arg : SendArg)
    (answer : WriteResult) : Option Outcome :=
  if c.state = .kConnected then
    if 0 ≤ intLength arg then
      c.sendInLoop (arg.start mem behind) (intLength arg).toNat answer
    else some (if c.idle = true then c.wrote [] else c, [])
  else some (c, [])

/-- How many bytes a send accepts: none when the connection is not up, nor when the direct
write finds the peer gone. -/
def accepts (c : TcpConnection) (len : Nat) (answer : WriteResult) : Nat :=
  if c.state = .kConnected then
    if c.idle = true ∧ ¬ answer.alive then 0 else len
  else 0

def next (s : Account) : Event → Option Account
  | .send mem behind arg answer =>
      (sendOnLoop s.conn mem behind arg answer).map fun r =>
        ⟨r.1, s.queued ++ callbacks r.2,
          s.accepted + accepts s.conn (intLength arg).toNat answer⟩
  | .handleWrite answer =>
      (s.conn.handleWrite answer).map fun r => ⟨r.1, s.queued ++ callbacks r.2, s.accepted⟩
  | .shutdown =>
      let r := s.conn.shutdown true
      some ⟨r.1, s.queued ++ callbacks r.2, s.accepted⟩

def machine : Machine Account Event where
  enabled _ _ := True
  step := next

def buffered (s : Account) : Nat := s.conn.outputBuffer.readableBytes
def written (s : Account) : Nat := s.conn.sent.length

/-- The length of the output buffer gets from below the mark to it or beyond. -/
def Crosses (mark : Nat) (s t : Account) : Prop := buffered s < mark ∧ mark ≤ buffered t

/-- The direct write of an empty message succeeds, with nothing pending. -/
def EmptyWrite (s : Account) : Event → Prop
  | .send _ _ arg (.accepted _) =>
      s.conn.state = .kConnected ∧ intLength arg = 0 ∧ buffered s = 0
  | .send _ _ _ (.failed _) | .handleWrite _ | .shutdown => False

/-- The step hands the last byte that was accepted to the socket. -/
def Completes (s : Account) (event : Event) (t : Account) : Prop :=
  written s < written t ∧ written t = t.accepted ∨ EmptyWrite s event

instance decidableCrosses (mark : Nat) (s t : Account) : Decidable (Crosses mark s t) :=
  inferInstanceAs (Decidable (_ ∧ _))

instance decidableEmptyWrite (s : Account) : (event : Event) → Decidable (EmptyWrite s event)
  | .send _ _ arg (.accepted _) =>
      inferInstanceAs
        (Decidable (s.conn.state = .kConnected ∧ intLength arg = 0 ∧ buffered s = 0))
  | .send _ _ _ (.failed _) | .handleWrite _ | .shutdown => inferInstanceAs (Decidable False)

instance decidableCompletes (s : Account) (event : Event) (t : Account) :
    Decidable (Completes s event t) :=
  inferInstanceAs (Decidable (_ ∨ _))

/-- What a step should queue. -/
def due (mark : Nat) (s : Account) (event : Event) (t : Account) : List Functor :=
  (if Crosses mark s t then [.highWaterMarkCallback (buffered t)] else []) ++
    if Completes s event t then [.writeCompleteCallback] else []

/-- What an operation that takes `c` to `d` queues. -/
inductive Queues (c d : TcpConnection) (empty : Prop) : List Functor → Prop
  | nothing
      (low : ¬ (c.outputBuffer.readableBytes < c.highWaterMark ∧
        c.highWaterMark ≤ d.outputBuffer.readableBytes))
      (unfinished : ¬ (c.sent.length < d.sent.length ∧ d.pending = [])) (more : ¬ empty) :
      Queues c d empty []
  | alarm (below : c.outputBuffer.readableBytes < c.highWaterMark)
      (above : c.highWaterMark ≤ d.outputBuffer.readableBytes) (waits : d.pending ≠ [])
      (more : ¬ empty) :
      Queues c d empty [.highWaterMarkCallback d.outputBuffer.readableBytes]
  | complete (done : d.pending = []) (finished : c.sent.length < d.sent.length ∨ empty) :
      Queues c d empty [.writeCompleteCallback]

section Operations

variable {c : TcpConnection} {empty : Prop}

/-- An operation after which the buffer is as it was, and no byte has been taken. -/
theorem Queues.still {d : TcpConnection} (buffer : d.outputBuffer = c.outputBuffer)
    (socket : d.sent = c.sent) (more : ¬ empty) : Queues c d empty [] := by
  refine .nothing ?_ ?_ more
  · rw [buffer]
    omega
  · rw [socket]
    exact fun finished => Nat.lt_irrefl _ finished.1

theorem callbacks_append (first second : List Effect) :
    callbacks (first ++ second) = callbacks first ++ callbacks second :=
  List.filterMap_append

/-- The rest of a message is appended to the buffer. -/
theorem queueRest_queues (a : Attempt) (msg : Nat → UInt8)
    (highWater : c.highWaterMarkCallback = true) (frame : OutputOnly c a.conn)
    (buffer : a.conn.outputBuffer = c.outputBuffer) (silent : a.effects = [])
    (some_ : 0 < a.remaining) (more : ¬ empty) :
    ∃ r, queueRest a msg = some r ∧ Queues c r.1 empty (callbacks r.2) := by
  obtain ⟨out, appended, content⟩ :=
    Buffer.append_content a.conn.outputBuffer (readFrom msg a.nwrote a.remaining)
  have length : out.readableBytes = c.outputBuffer.readableBytes + a.remaining := by
    rw [← Buffer.content_length, content, List.length_append, Buffer.content_length,
      readFrom_length, buffer]
  have set_ : a.conn.highWaterMarkCallback = true :=
    (congrArg (·.highWaterMarkCallback) frame).trans highWater
  have mark : a.conn.highWaterMark = c.highWaterMark := congrArg (·.highWaterMark) frame
  have waits : out.content ≠ [] := by
    rw [ne_eq, ← Buffer.readableBytes_eq_zero]
    omega
  -- with the new buffer, the functors are the same whether or not the channel is writing
  have queues (d : TcpConnection) (new : d.outputBuffer = out) (effects : List Effect)
      (quiet : callbacks effects = []) :
      Queues c d empty (callbacks ((if a.conn.highWaterMark ≤
          a.conn.outputBuffer.readableBytes + a.remaining ∧
          a.conn.outputBuffer.readableBytes < a.conn.highWaterMark ∧
          a.conn.highWaterMarkCallback = true then
        [Effect.queueInLoop (.highWaterMarkCallback
          (a.conn.outputBuffer.readableBytes + a.remaining))] else []) ++ effects)) := by
    rw [callbacks_append, quiet, List.append_nil, mark, buffer, ← length, ← new]
    have pending : d.pending ≠ [] := by
      rw [TcpConnection.pending, new]
      exact waits
    split
    · rename_i crosses
      exact .alarm crosses.2.1 crosses.1 pending more
    · rename_i low
      refine .nothing ?_ (fun finished => pending finished.2) more
      rintro ⟨below, above⟩
      exact low ⟨above, below, set_⟩
  simp only [queueRest, appended, Option.map_some, silent, List.nil_append]
  split
  · refine ⟨_, rfl, ?_⟩
    have queued := queues { a.conn with outputBuffer := out } rfl [] rfl
    rwa [List.append_nil] at queued
  · exact ⟨_, rfl, queues _ rfl _ rfl⟩

/-- The direct write: it takes everything, or the rest is appended to the buffer, or the peer
is gone. -/
theorem sendInLoop_idle_queues (msg : Nat → UInt8) (len : Nat) (answer : WriteResult)
    (live : c.state ≠ .kDisconnected) (free : c.idle = true)
    (writeComplete : c.writeCompleteCallback = true)
    (highWater : c.highWaterMarkCallback = true) :
    ∃ r, c.sendInLoop msg len answer = some r ∧
      Queues c r.1 (c.pending = [] ∧ len = 0 ∧ ∃ n, answer = .accepted n) (callbacks r.2) := by
  have none : c.pending = [] := ((idle_iff c).mp free).2
  have bound := directWrite_remaining c msg len answer
  simp only [sendInLoop, live, ↓reduceIte, bound]
  cases answer with
  | accepted n =>
      have direct : c.directWrite msg len (.accepted n) =
          ⟨c.wrote (readFrom msg 0 (min n len)), min n len, len - min n len, false,
            if len - min n len = 0 then [.queueInLoop .writeCompleteCallback] else []⟩ := by
        simp only [directWrite, free, ↓reduceIte, writeComplete, and_true]
      rw [direct]
      by_cases all : len - min n len = 0
      · rw [if_neg fun both => absurd all (Nat.ne_of_gt both.2), if_pos all]
        refine ⟨_, rfl, .complete none ?_⟩
        by_cases zero : len = 0
        · exact Or.inr ⟨none, zero, n, rfl⟩
        · left
          rw [wrote_sent, List.length_append, readFrom_length]
          omega
      · rw [if_pos ⟨rfl, Nat.pos_of_ne_zero all⟩, if_neg all]
        exact queueRest_queues _ msg highWater (wrote_outputOnly c _) rfl rfl
          (Nat.pos_of_ne_zero all) fun empty => all (by omega)
  | failed errno =>
      have direct : c.directWrite msg len (.failed errno) =
          ⟨c.wrote [], 0, len, errno.fatal, []⟩ := by
        simp only [directWrite, free, ↓reduceIte]
      have more : ¬ (c.pending = [] ∧ len = 0 ∧ ∃ n, WriteResult.failed errno = .accepted n) := by
        simp
      rw [direct]
      split
      · rename_i rest
        exact queueRest_queues _ msg highWater (wrote_outputOnly c []) rfl rfl rest.2 more
      · exact ⟨_, rfl, .still rfl (by rw [wrote_sent, List.append_nil]) more⟩

/-- sendInLoop while the writing flag stands for a non-empty buffer. -/
theorem sendInLoop_queues (msg : Nat → UInt8) (len : Nat) (answer : WriteResult)
    (live : c.state ≠ .kDisconnected) (sync : c.InSync)
    (writeComplete : c.writeCompleteCallback = true)
    (highWater : c.highWaterMarkCallback = true) :
    ∃ r, c.sendInLoop msg len answer = some r ∧
      Queues c r.1 (c.pending = [] ∧ len = 0 ∧ ∃ n, answer = .accepted n) (callbacks r.2) := by
  by_cases free : c.idle = true
  · exact sendInLoop_idle_queues msg len answer live free writeComplete highWater
  · have waiting : c.pending ≠ [] := by
      intro none
      apply free
      rw [idle_iff]
      refine ⟨?_, none⟩
      rw [Bool.eq_false_iff]
      intro writing
      exact sync.mp writing none
    have off : c.directWrite msg len answer = ⟨c, len, len, false, []⟩ := if_neg free
    simp only [sendInLoop, live, ↓reduceIte, off, Nat.le_refl]
    by_cases some_ : 0 < len
    · rw [if_pos ⟨trivial, some_⟩]
      exact queueRest_queues _ msg highWater rfl rfl rfl some_ fun empty => waiting empty.1
    · rw [if_neg fun both => some_ both.2]
      exact ⟨_, rfl, .still rfl rfl fun empty => waiting empty.1⟩

/-- handleWrite only shortens the buffer, and queues the callback when it is empty then. -/
theorem handleWrite_queues (answer : WriteResult) (writeComplete : c.writeCompleteCallback = true) :
    ∃ r, c.handleWrite answer = some r ∧ Queues c r.1 False (callbacks r.2) := by
  have shorter (k : Nat) (out : Buffer) (content : out.content = c.pending.drop k) :
      out.readableBytes ≤ c.outputBuffer.readableBytes := by
    rw [← Buffer.content_length, content, List.length_drop, pending, Buffer.content_length]
    exact Nat.sub_le _ _
  rcases handleWrite_cases c answer with ⟨_, done⟩ | ⟨_, _, done⟩ |
    ⟨k, out, _, _, content, more, done⟩ | ⟨k, out, _, drains, content, empty, done⟩
  · exact ⟨_, done, .still rfl rfl id⟩
  · exact ⟨_, done, .still rfl (by rw [wrote_sent, List.append_nil]) id⟩
  · refine ⟨_, done, .nothing ?_ (fun finished => more finished.2) id⟩
    have bound := shorter k out content
    show ¬ (c.outputBuffer.readableBytes < c.highWaterMark ∧ c.highWaterMark ≤ out.readableBytes)
    omega
  · obtain ⟨_, taken, unread, _⟩ := drained_spec (c.took k out)
    have set_ : (c.took k out).writeCompleteCallback = true := writeComplete
    have queued : callbacks (c.took k out).drained.2 = [.writeCompleteCallback] := by
      simp only [drained, set_, ↓reduceIte]
      rfl
    refine ⟨_, done, ?_⟩
    rw [queued]
    refine .complete ?_ (Or.inl ?_)
    · rw [pending, unread]
      exact empty
    · have stream := congrArg List.length (took_stream c k out content)
      rw [show (c.took k out).pending = [] from empty, List.append_nil, List.length_append,
        show c.pending.length = c.outputBuffer.readableBytes from Buffer.content_length _] at stream
      rw [taken, stream]
      have some_ : 0 < c.outputBuffer.readableBytes := by
        cases answer with
        | accepted n => exact drains.2.1
        | failed errno => exact drains.elim
      omega

/-- Below 2^31 the length is the int that it is passed as. -/
theorem sendOnLoop_eq_sendArg (mem : Memory) (behind : Nat → UInt8) (arg : SendArg)
    (answer : WriteResult) (small : arg.length < 2 ^ 31) :
    sendOnLoop c mem behind arg answer = (c.sendArg mem behind true answer arg).map Prod.fst := by
  have same : intLength arg = arg.length := Int.bmod_eq_of_le (by omega) (by omega)
  unfold sendOnLoop
  rw [same, if_pos (Int.natCast_nonneg _), Int.toNat_natCast]
  by_cases connected : c.state = .kConnected
  · rw [if_pos connected, sendArg_inLoop c mem behind answer arg connected, Option.map_map]
    exact Option.map_id'.symm
  · rw [if_neg connected, sendArg_closed c mem behind true answer arg connected]
    rfl

/-- A write that is refused leaves only its mark on the socket. -/
theorem refused_kept (c : TcpConnection) :
    OutputOnly c (if c.idle = true then c.wrote [] else c) ∧
      (if c.idle = true then c.wrote [] else c).outputBuffer = c.outputBuffer ∧
      (if c.idle = true then c.wrote [] else c).channel = c.channel ∧
      (if c.idle = true then c.wrote [] else c).sent = c.sent := by
  split
  · exact ⟨wrote_outputOnly c [], rfl, rfl, by rw [wrote_sent, List.append_nil]⟩
  · exact ⟨rfl, rfl, rfl, rfl⟩

/-- How many bytes sendInLoop adds, wherever they are read from. -/
theorem contribution_length (msg : Nat → UInt8) (len : Nat) (answer : WriteResult)
    (connected : c.state = .kConnected) :
    (c.contribution msg len answer).length = accepts c len answer := by
  unfold contribution accepts
  rw [if_pos connected]
  by_cases free : c.idle = true
  · rw [if_pos free]
    cases answer with
    | accepted n =>
        rw [if_neg fun both => both.2 trivial]
        exact readFrom_length msg 0 len
    | failed errno =>
        dsimp only
        cases fatal : errno.fatal with
        | true =>
            have gone : ¬ WriteResult.alive (.failed errno) := by simp [WriteResult.alive, fatal]
            rw [if_pos rfl, if_pos ⟨free, gone⟩, List.length_nil]
        | false =>
            have alive : WriteResult.alive (.failed errno) := fatal
            rw [if_neg Bool.false_ne_true, if_neg fun both => both.2 alive]
            exact readFrom_length msg 0 len
  · rw [if_neg free, if_neg fun both => free both.1]
    exact readFrom_length msg len len

end Operations

/-- What holds between any two steps: the books are balanced, and both callbacks are set. -/
structure Balanced (mark : Nat) (s : Account) : Prop where
  live : s.conn.state ≠ .kDisconnected
  sync : s.conn.InSync
  balance : written s + buffered s = s.accepted
  writeComplete : s.conn.writeCompleteCallback = true
  highWater : s.conn.highWaterMarkCallback = true
  marked : s.conn.highWaterMark = mark

section Steps

variable {mark : Nat} {s t : Account}

theorem buffered_eq (s : Account) : buffered s = s.conn.pending.length :=
  (Buffer.content_length _).symm

theorem Balanced.step (balanced : Balanced mark s) (d : TcpConnection)
    (frame : OutputOnly s.conn d) (sync : d.InSync) (queued : List Functor) (more : Nat)
    (balance : d.sent.length + d.pending.length = written s + buffered s + more) :
    Balanced mark ⟨d, queued, s.accepted + more⟩ where
  live := by
    rw [frame.state]
    exact balanced.live
  sync := sync
  balance := by
    rw [buffered_eq, ← balanced.balance]
    exact balance
  writeComplete := (congrArg (·.writeCompleteCallback) frame).trans balanced.writeComplete
  highWater := (congrArg (·.highWaterMarkCallback) frame).trans balanced.highWater
  marked := (congrArg (·.highWaterMark) frame).trans balanced.marked

/-- From what an operation queues to what the step should queue: the books say when the last
byte has been handed over. -/
theorem Queues.agrees {event : Event} {functors : List Functor} (balanced : Balanced mark s)
    (after : Balanced mark t) {empty : Prop} (queues : Queues s.conn t.conn empty functors)
    (same : empty ↔ EmptyWrite s event) :
    functors = due mark s event t ∧ (.writeCompleteCallback ∈ functors → buffered t = 0) := by
  have drained : written t = t.accepted ↔ t.conn.pending = [] := by
    rw [← after.balance, buffered_eq, ← List.length_eq_zero_iff]
    omega
  unfold due
  cases queues with
  | nothing low unfinished more =>
      have quiet : ¬ Crosses mark s t := by
        rw [← balanced.marked]
        exact low
      have going : ¬ Completes s event t := by
        rintro (⟨grows, all⟩ | nothing)
        · exact unfinished ⟨grows, drained.mp all⟩
        · exact more (same.mpr nothing)
      rw [if_neg quiet, if_neg going]
      exact ⟨rfl, fun member => by cases member⟩
  | alarm below above waits more =>
      rw [balanced.marked] at below above
      have going : ¬ Completes s event t := by
        rintro (⟨_, all⟩ | nothing)
        · exact waits (drained.mp all)
        · exact more (same.mpr nothing)
      rw [if_pos ⟨below, above⟩, if_neg going]
      exact ⟨rfl, fun member => by simp at member⟩
  | complete done finished =>
      have none : buffered t = 0 := by rw [buffered_eq, done, List.length_nil]
      have quiet : ¬ Crosses mark s t := by
        unfold Crosses
        omega
      have completes : Completes s event t := by
        rcases finished with grows | nothing
        · exact Or.inl ⟨grows, drained.mpr done⟩
        · exact Or.inr (same.mp nothing)
      rw [if_neg quiet, if_pos completes]
      exact ⟨rfl, fun _ => none⟩

theorem emptyWrite_send (mem : Memory) (behind : Nat → UInt8) (arg : SendArg)
    (answer : WriteResult) (connected : s.conn.state = .kConnected) (fits : 0 ≤ intLength arg) :
    (s.conn.pending = [] ∧ (intLength arg).toNat = 0 ∧ ∃ n, answer = .accepted n) ↔
      EmptyWrite s (.send mem behind arg answer) := by
  cases answer with
  | accepted n =>
      show _ ↔ s.conn.state = .kConnected ∧ intLength arg = 0 ∧ buffered s = 0
      rw [buffered_eq, List.length_eq_zero_iff]
      constructor
      · exact fun nothing => ⟨connected, by omega, nothing.1⟩
      · exact fun nothing => ⟨nothing.2.2, by omega, n, rfl⟩
  | failed errno =>
      show _ ↔ False
      simp

/-- A message is empty for sendInLoop only when the length is not negative. -/
theorem EmptyWrite.connected {mem : Memory} {behind : Nat → UInt8} {arg : SendArg}
    {answer : WriteResult} (nothing : EmptyWrite s (.send mem behind arg answer)) :
    s.conn.state = .kConnected ∧ intLength arg = 0 := by
  cases answer with
  | accepted n => exact ⟨nothing.1, nothing.2.1⟩
  | failed errno => exact nothing.elim

/-- The half-close leaves the output alone. -/
theorem shutdown_balanced (balanced : Balanced mark s) :
    Balanced mark ⟨(s.conn.shutdown true).1, s.queued, s.accepted⟩ ∧
      (s.conn.shutdown true).1.outputBuffer = s.conn.outputBuffer ∧
      (s.conn.shutdown true).1.sent = s.conn.sent ∧ (s.conn.shutdown true).2 = [] := by
  unfold shutdown
  split
  · rw [if_pos rfl]
    obtain ⟨taken, buffer, channel⟩ :=
      shutdownInLoop_kept { s.conn with state := .kDisconnecting }
    have closing : Balanced mark ⟨{ s.conn with state := .kDisconnecting }, s.queued, s.accepted⟩ :=
      ⟨(fun closed => by cases closed), balanced.sync, balanced.balance, balanced.writeComplete,
        balanced.highWater, balanced.marked⟩
    refine ⟨closing.step _ (shutdownInLoop_outputOnly _) (closing.sync.of_same buffer channel)
      s.queued 0 ?_, buffer, taken, rfl⟩
    rw [taken, pending, buffer, Buffer.content_length]
    rfl
  · exact ⟨balanced, rfl, rfl, rfl⟩

/-- A send in each of its cases: the connection is up or not, and the length is that of a
message or negative. -/
theorem send_step (balanced : Balanced mark s) (mem : Memory) (behind : Nat → UInt8)
    (arg : SendArg) (answer : WriteResult) :
    ∃ r empty, sendOnLoop s.conn mem behind arg answer = some r ∧
      Balanced mark ⟨r.1, s.queued ++ callbacks r.2,
        s.accepted + accepts s.conn (intLength arg).toNat answer⟩ ∧
      Queues s.conn r.1 empty (callbacks r.2) ∧
      (empty ↔ EmptyWrite s (.send mem behind arg answer)) := by
  unfold sendOnLoop
  by_cases connected : s.conn.state = .kConnected
  · rw [if_pos connected]
    by_cases fits : 0 ≤ intLength arg
    · rw [if_pos fits]
      obtain ⟨r, done, frame, stream, sync⟩ := sendInLoop_spec s.conn (arg.start mem behind)
        (intLength arg).toNat answer balanced.live
      obtain ⟨r', again, queues⟩ := sendInLoop_queues (arg.start mem behind)
        (intLength arg).toNat answer balanced.live balanced.sync balanced.writeComplete
        balanced.highWater
      obtain rfl : r = r' := Option.some.inj (done.symm.trans again)
      have length := congrArg List.length stream
      rw [List.length_append, List.length_append, List.length_append,
        contribution_length _ _ _ connected] at length
      exact ⟨r, _, done, balanced.step r.1 frame (sync balanced.sync) _ _
        (by rw [length, buffered_eq]; rfl), queues,
        emptyWrite_send mem behind arg answer connected fits⟩
    · rw [if_neg fits]
      have none : accepts s.conn (intLength arg).toNat answer = 0 := by
        rw [Int.toNat_of_nonpos (by omega), accepts, ite_self, ite_self]
      have more : ¬ EmptyWrite s (.send mem behind arg answer) := fun nothing =>
        fits (Int.le_of_eq nothing.connected.2.symm)
      obtain ⟨frame, buffer, channel, taken⟩ := refused_kept s.conn
      rw [none]
      refine ⟨_, _, rfl, balanced.step _ frame (balanced.sync.of_same buffer channel) _ 0 ?_,
        .still buffer taken more, Iff.rfl⟩
      rw [taken, pending, buffer, Buffer.content_length]
      rfl
  · rw [if_neg connected]
    have none : accepts s.conn (intLength arg).toNat answer = 0 := if_neg connected
    rw [none]
    exact ⟨_, False, rfl, balanced.step s.conn rfl balanced.sync _ 0 (by rw [buffered_eq]; rfl),
      .still rfl rfl id, False.elim, fun nothing => connected nothing.connected.1⟩

theorem handleWrite_step (balanced : Balanced mark s) (answer : WriteResult) :
    ∃ r, s.conn.handleWrite answer = some r ∧
      Balanced mark ⟨r.1, s.queued ++ callbacks r.2, s.accepted⟩ ∧
      Queues s.conn r.1 False (callbacks r.2) := by
  obtain ⟨r, done, frame, stream, sync⟩ := handleWrite_spec s.conn answer
  obtain ⟨r', again, queues⟩ := handleWrite_queues answer balanced.writeComplete
  obtain rfl : r = r' := Option.some.inj (done.symm.trans again)
  have length := congrArg List.length stream
  rw [List.length_append, List.length_append] at length
  exact ⟨r, done, balanced.step r.1 frame (sync balanced.sync) _ 0
    (by rw [length, buffered_eq]; rfl), queues⟩

/-- Every step queues what it should, keeps the books balanced, and trips no assertion. -/
theorem next_spec (balanced : Balanced mark s) (event : Event) :
    ∃ t, next s event = some t ∧ Balanced mark t ∧ t.queued = s.queued ++ due mark s event t ∧
      (.writeCompleteCallback ∈ due mark s event t → buffered t = 0) := by
  -- each operation is followed by the comparison of what it has queued
  have finish {t : Account} {functors : List Functor} {empty : Prop}
      (moved : next s event = some t) (after : Balanced mark t)
      (queued : t.queued = s.queued ++ functors) (queues : Queues s.conn t.conn empty functors)
      (same : empty ↔ EmptyWrite s event) :
      ∃ t, next s event = some t ∧ Balanced mark t ∧ t.queued = s.queued ++ due mark s event t ∧
        (.writeCompleteCallback ∈ due mark s event t → buffered t = 0) := by
    obtain ⟨agree, last⟩ := queues.agrees balanced after same
    exact ⟨t, moved, after, agree ▸ queued, agree ▸ last⟩
  cases event with
  | send mem behind arg answer =>
      obtain ⟨r, empty, done, after, queues, same⟩ := send_step balanced mem behind arg answer
      exact finish (by rw [next, done]; rfl) after rfl queues same
  | handleWrite answer =>
      obtain ⟨r, done, after, queues⟩ := handleWrite_step balanced answer
      exact finish (by rw [next, done]; rfl) after rfl queues Iff.rfl
  | shutdown =>
      obtain ⟨after, buffer, taken, silent⟩ := shutdown_balanced balanced
      refine finish ?_ after (List.append_nil _).symm (.still buffer taken id) Iff.rfl
      show some _ = some _
      rw [silent, show callbacks [] = [] from rfl, List.append_nil]

theorem balanced_preserves : machine.Preserves (Balanced mark) := by
  intro s event t balanced _ moved
  obtain ⟨u, done, after, _⟩ := next_spec balanced event
  obtain rfl : u = t := Option.some.inj (done.symm.trans moved)
  exact after

theorem opened_balanced (c : TcpConnection) (opened : OutputStream.Opened c)
    (writeComplete : c.writeCompleteCallback = true)
    (highWater : c.highWaterMarkCallback = true) : Balanced c.highWaterMark ⟨c, [], 0⟩ where
  live := by
    rw [opened.connected]
    exact fun closed => by cases closed
  sync := (OutputStream.opened_invariant c opened).sync
  balance := by
    rw [buffered_eq, opened.empty, written, sent, opened.unused]
    rfl
  writeComplete := writeComplete
  highWater := highWater
  marked := rfl

def isAlarm : Functor → Bool
  | .highWaterMarkCallback _ => true
  | _ => false

theorem due_alarms (mark : Nat) (s : Account) (event : Event) (t : Account) :
    (due mark s event t).countP isAlarm = if Crosses mark s t then 1 else 0 := by
  unfold due
  split <;> split <;> rfl

/-- As many alarms as steps that cross the mark. -/
theorem alarms_count (mark : Nat) (steps : List (Account × Event × Account)) :
    (steps.flatMap fun step => due mark step.1 step.2.1 step.2.2).countP isAlarm =
      steps.countP fun step => Crosses mark step.1 step.2.2 := by
  induction steps with
  | nil => rfl
  | cons step rest ih =>
      rw [List.flatMap_cons, List.countP_append, due_alarms, ih, List.countP_cons, Nat.add_comm]
      simp only [decide_eq_true_eq]

end Steps

/-- Over any sends and handleWrite events, with any answers of the kernel, the functors queued
are those of the steps: the high water mark callback, with the new length, of each step that
crosses the mark, and the write complete callback of each step that hands over the last byte
accepted or writes an empty message. The latter comes only when no bytes are left. -/
theorem flow_control (c : TcpConnection) (opened : OutputStream.Opened c)
    (writeComplete : c.writeCompleteCallback = true)
    (highWater : c.highWaterMarkCallback = true) (events : List Event) (s : Account)
    (run : machine.Run ⟨c, [], 0⟩ events s) :
    s.queued = ((machine.trace ⟨c, [], 0⟩ events).flatMap fun step =>
      (if Crosses c.highWaterMark step.1 step.2.2 then
        [.highWaterMarkCallback (buffered step.2.2)] else []) ++
      if Completes step.1 step.2.1 step.2.2 then [.writeCompleteCallback] else []) ∧
    (s.queued.countP isAlarm = (machine.trace ⟨c, [], 0⟩ events).countP fun step =>
      Crosses c.highWaterMark step.1 step.2.2) ∧
    (∀ step ∈ machine.trace ⟨c, [], 0⟩ events,
      step.2.2.queued = step.1.queued ++ due c.highWaterMark step.1 step.2.1 step.2.2 ∧
      (Completes step.1 step.2.1 step.2.2 → buffered step.2.2 = 0)) ∧
    ∀ event, ∃ t, machine.step s event = some t := by
  have start := opened_balanced c opened writeComplete highWater
  have step (s : Account) (event : Event) (t : Account) (balanced : Balanced c.highWaterMark s)
      (moved : machine.step s event = some t) :
      t.queued = s.queued ++ due c.highWaterMark s event t ∧
        (Completes s event t → buffered t = 0) := by
    obtain ⟨u, done, _, queued, last⟩ := next_spec balanced event
    obtain rfl : u = t := Option.some.inj (done.symm.trans moved)
    refine ⟨queued, fun completes => last ?_⟩
    rw [due, if_pos completes]
    exact List.mem_append_right _ List.mem_cons_self
  have logged := run.log_trace balanced_preserves Account.queued (due c.highWaterMark)
    (fun s event t balanced _ moved => (step s event t balanced moved).1) start
  rw [List.nil_append] at logged
  refine ⟨logged, ?_, ?_, ?_⟩
  · rw [logged, alarms_count]
  · exact run.forall_trace balanced_preserves
      (fun s event t balanced _ moved => step s event t balanced moved) start
  · intro event
    obtain ⟨t, done, _⟩ := next_spec (run.invariant balanced_preserves start) event
    exact ⟨t, done⟩

instance decidableEnabled (s : Account) (event : Event) : Decidable (machine.enabled s event) :=
  inferInstanceAs (Decidable True)

/-- An established connection with both callbacks set and a low mark. -/
def throttled : TcpConnection :=
  { established [99] 5 with
    writeCompleteCallback := true
    highWaterMarkCallback := true
    highWaterMark := 2 }

theorem throttled_opened : OutputStream.Opened throttled := ⟨rfl, rfl, Buffer.fresh_content, rfl⟩

/-- A message of three bytes is written in three parts, before the half-close. -/
theorem flow_control_parts :
    ∃ s, machine.Run ⟨throttled, [], 0⟩
        [.send letters letters (.pointer 0 3) (.accepted 1), .handleWrite (.failed .ewouldblock),
          .handleWrite (.accepted 1), .handleWrite (.accepted 9), .shutdown] s ∧
      s.queued = [.highWaterMarkCallback 2, .writeCompleteCallback] ∧
      ((machine.trace ⟨throttled, [], 0⟩
        [.send letters letters (.pointer 0 3) (.accepted 1), .handleWrite (.failed .ewouldblock),
          .handleWrite (.accepted 1), .handleWrite (.accepted 9), .shutdown]).countP fun step =>
        Crosses 2 step.1 step.2.2) = 1 := by
  obtain ⟨s, run, queued⟩ := machine.exists_run_of_play ⟨throttled, [], 0⟩
    [.send letters letters (.pointer 0 3) (.accepted 1), .handleWrite (.failed .ewouldblock),
      .handleWrite (.accepted 1), .handleWrite (.accepted 9), .shutdown]
    Account.queued [.highWaterMarkCallback 2, .writeCompleteCallback] (by decide +kernel)
  have counted := (flow_control throttled throttled_opened rfl rfl _ s run).2.1
  refine ⟨s, run, queued, counted.symm.trans ?_⟩
  rw [queued]
  rfl

end Tundra.FlowControl
