import Mathlib.Algebra.Group.Nat.Defs
import Mathlib.Data.List.Basic
import Tundra.Library.Machine
import Tundra.Net.TcpSend

set_option autoImplicit false

/- The byte stream of one connected TcpConnection whose user sends on the loop
thread, while poll reports the socket writable now and then. -/
namespace Tundra.OutputStream

open Library TcpConnection

/-- The connection together with the messages sent on it so far. -/
structure Stream where
  conn : TcpConnection
  messages : List Bytes

inductive Event
  | send (mem : Memory) (behind : Nat → UInt8) (arg : SendArg) (answer : WriteResult)
  | handleWrite (answer : WriteResult)

/-- Messages are shorter than 2^31, the range of the int that carries their length,
and no write finds the peer gone. -/
def Allowed : Event → Prop
  | .send _ _ arg answer => arg.length < 2 ^ 31 ∧ answer.alive
  | .handleWrite answer => answer.alive

instance : (event : Event) → Decidable (Allowed event)
  | .send _ _ arg answer => inferInstanceAs (Decidable (arg.length < 2 ^ 31 ∧ answer.alive))
  | .handleWrite answer => inferInstanceAs (Decidable answer.alive)

def next (s : Stream) : Event → Option Stream
  | .send mem behind arg answer =>
      (s.conn.sendArg mem behind true answer arg).map fun r =>
        ⟨r.1.1, s.messages ++ [arg.content mem]⟩
  | .handleWrite answer => (s.conn.handleWrite answer).map fun r => ⟨r.1, s.messages⟩

def machine : Machine Stream Event where
  enabled _ event := Allowed event
  step := next

/-- A connection that is up and has not written yet. -/
structure Opened (c : TcpConnection) : Prop where
  connected : c.state = .kConnected
  unused : c.socket = []
  empty : c.pending = []
  quiet : c.channel.isWriting = false

/-- No byte lost, duplicated, reordered or made up. -/
def Intact (s : Stream) : Prop := s.conn.sent ++ s.conn.pending = s.messages.flatten

/-- A send of at least one byte finds nothing waiting for the socket. -/
def Unqueued (s : Stream) : Event → Prop
  | .send _ _ arg _ => arg.length = 0 ∨ s.conn.idle = true
  | .handleWrite _ => True

instance (s : Stream) : (event : Event) → Decidable (Unqueued s event)
  | .send _ _ arg _ => inferInstanceAs (Decidable (arg.length = 0 ∨ s.conn.idle = true))
  | .handleWrite _ => inferInstanceAs (Decidable True)

structure Invariant (s : Stream) : Prop where
  connected : s.conn.state = .kConnected
  sync : s.conn.InSync
  intact : Intact s

theorem opened_invariant (c : TcpConnection) (opened : Opened c) : Invariant ⟨c, []⟩ := by
  refine ⟨opened.connected, ?_, ?_⟩
  · unfold InSync
    rw [opened.empty, opened.quiet]
    simp
  · unfold Intact sent
    rw [opened.unused, opened.empty]
    rfl

theorem contribution_unqueued (c : TcpConnection) (mem : Memory) (behind : Nat → UInt8)
    (arg : SendArg) (answer : WriteResult) (free : arg.length = 0 ∨ c.idle = true)
    (alive : answer.alive) :
    c.contribution (arg.start mem behind) arg.length answer = arg.content mem := by
  rw [← SendArg.readFrom_start mem behind arg]
  unfold contribution
  rcases free with none | free
  · rw [none]
    cases answer <;> simp
  · rw [if_pos free]
    cases answer with
    | accepted n => rfl
    | failed errno =>
        have mild : errno.fatal = false := alive
        simp only [mild, Bool.false_eq_true, ↓reduceIte]

theorem next_exists (s : Stream) (event : Event) (connected : s.conn.state = .kConnected) :
    ∃ t, next s event = some t := by
  cases event with
  | send mem behind arg answer =>
      have live : s.conn.state ≠ .kDisconnected := by rw [connected]; decide
      obtain ⟨r, sent, _⟩ := sendInLoop_spec s.conn (arg.start mem behind) arg.length answer live
      exact ⟨_, by rw [next, sendArg_inLoop _ _ _ _ _ connected, sent]; rfl⟩
  | handleWrite answer =>
      obtain ⟨r, written, _⟩ := handleWrite_spec s.conn answer
      exact ⟨_, by rw [next, written]; rfl⟩

theorem next_invariant (s t : Stream) (event : Event) (inv : Invariant s) (allowed : Allowed event)
    (free : Unqueued s event) (moved : next s event = some t) : Invariant t := by
  cases event with
  | send mem behind arg answer =>
      have live : s.conn.state ≠ .kDisconnected := by rw [inv.connected]; decide
      obtain ⟨r, sent, frame, stream, sync⟩ :=
        sendInLoop_spec s.conn (arg.start mem behind) arg.length answer live
      rw [next, sendArg_inLoop _ _ _ _ _ inv.connected, sent, Option.map_some, Option.map_some,
        Option.some.injEq] at moved
      subst moved
      refine ⟨frame.state.trans inv.connected, sync inv.sync, ?_⟩
      have before := inv.intact
      unfold Intact at before ⊢
      rw [stream, before, contribution_unqueued s.conn mem behind arg answer free allowed.2]
      simp
  | handleWrite answer =>
      obtain ⟨r, written, frame, stream, sync⟩ := handleWrite_spec s.conn answer
      rw [next, written, Option.map_some, Option.some.injEq] at moved
      subst moved
      exact ⟨frame.state.trans inv.connected, sync inv.sync, stream.trans inv.intact⟩

theorem unqueued_preserves : (machine.restrict Unqueued).Preserves Invariant := by
  intro s event t inv allowed moved
  exact next_invariant s t event inv allowed.1 allowed.2 moved

/-- As long as every send of at least one byte finds the output idle, the socket's
bytes followed by the buffered ones are the messages in order, and no assertion
fails whatever comes next. -/
theorem outputStream_intact (c : TcpConnection) (opened : Opened c) (events : List Event)
    (s : Stream) (run : (machine.restrict Unqueued).Run ⟨c, []⟩ events s) :
    Intact s ∧ ∀ event, ∃ t, machine.step s event = some t := by
  have inv := run.invariant unqueued_preserves (opened_invariant c opened)
  exact ⟨inv.intact, fun event => next_exists s event inv.connected⟩

theorem established_opened (name : Bytes) (sockfd : Int) : Opened (established name sockfd) :=
  ⟨rfl, rfl, Buffer.fresh_content, rfl⟩

instance (s : Stream) (event : Event) : Decidable (machine.enabled s event) :=
  inferInstanceAs (Decidable (Allowed event))

instance (s : Stream) (event : Event) : Decidable ((machine.restrict Unqueued).enabled s event) :=
  inferInstanceAs (Decidable (Allowed event ∧ Unqueued s event))

/-- A is buffered by a full socket, then drained, then B is written directly. -/
theorem outputStream_intact_drained :
    ∃ s, (machine.restrict Unqueued).Run ⟨established [99] 5, []⟩
      [.send letters letters (.pointer 0 1) (.accepted 0), .handleWrite (.accepted 1),
        .send letters letters (.string 1 1) (.accepted 1)] s ∧ Intact s := by
  obtain ⟨s, run, _⟩ := (machine.restrict Unqueued).exists_run_of_play ⟨established [99] 5, []⟩
    [.send letters letters (.pointer 0 1) (.accepted 0), .handleWrite (.accepted 1),
      .send letters letters (.string 1 1) (.accepted 1)]
    (fun s => s.conn.sent) [65, 66] (by decide +kernel)
  exact ⟨s, run, (outputStream_intact _ (established_opened [99] 5) _ s run).1⟩

/-- B is sent while A still waits: the byte behind B goes out in its place. -/
theorem outputStream_broken :
    Opened (established [99] 5) ∧
      ∃ s, machine.Run ⟨established [99] 5, []⟩
        [.send letters letters (.pointer 0 1) (.accepted 0),
          .send letters letters (.pointer 1 1) (.accepted 0)] s ∧
      s.messages = [[65], [66]] ∧ s.conn.sent ++ s.conn.pending = [65, 88] ∧ ¬ Intact s := by
  obtain ⟨s, run, seen⟩ := machine.exists_run_of_play ⟨established [99] 5, []⟩
    [.send letters letters (.pointer 0 1) (.accepted 0),
      .send letters letters (.pointer 1 1) (.accepted 0)]
    (fun s => (s.messages, s.conn.sent ++ s.conn.pending)) ([[65], [66]], [65, 88])
    (by decide +kernel)
  simp only [Prod.mk.injEq] at seen
  obtain ⟨messages, stream⟩ := seen
  refine ⟨established_opened [99] 5, s, run, messages, stream, ?_⟩
  rw [Intact, stream, messages]
  decide

end Tundra.OutputStream
