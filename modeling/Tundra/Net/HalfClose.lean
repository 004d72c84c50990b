import Mathlib.Algebra.Group.Nat.Defs
import Tundra.Net.ConnectionBooks

set_option autoImplicit false

/- The half-close of one connection whose user stays on the loop thread. What a user
callback does are further calls, made between the steps of the loop. -/
namespace Tundra.HalfClose

open Library TcpConnection

/-- The connection, the functors it has left in its loop's queue, and the number of
timers that forceCLoseWithDelay has set. -/
structure State where
  conn : TcpConnection
  functors : List Functor
  timers : Nat

inductive Label
  | connectEstablished
  | send (mem : Memory) (behind : Nat → UInt8) (arg : SendArg) (answer : WriteResult)
  | shutdown
  | forceClose
  | forceCLoseWithDelay
  | startRead
  | stopRead
  | retrieve (left : Buffer)
  | handleRead (input : Option Bytes)
  | handleWrite (answer : WriteResult)
  | handleClose
  | runFunctor (mem : Memory) (behind : Nat → UInt8) (answer : WriteResult)
  | fireTimer (locked : Bool)
  | connectDestroyed

namespace State

def effect (s : State) : Effect → State
  | .queueInLoop f => { s with functors := s.functors ++ [f] }
  | .runAfterForceClose => { s with timers := s.timers + 1 }
  | .updateChannel _ | .removeChannel => s

def took (s : State) (r : Outcome) : State := r.2.foldl effect { s with conn := r.1 }

/-- The same after a function that may have run handleClose, which ends with closeCallback_;
that makes the server queue connectDestroyed. -/
def closing (s : State) (r : Outcome) : State :=
  if r.1.state = s.conn.state then s.took r
  else (s.took r).effect (.queueInLoop .connectDestroyed)

def connectDestroyed (s : State) : Option State :=
  let down := if s.conn.state = .kConnected then s.took s.conn.takeDown else s
  down.conn.removeChannel.map down.took

def run (s : State) (mem : Memory) (behind : Nat → UInt8) (answer : WriteResult) :
    Functor → Option State
  | .writeCompleteCallback | .highWaterMarkCallback _ => some s
  | .sendInLoop bound => (s.conn.runSend mem behind answer bound).map s.took
  | .shutdownInLoop => some (s.took (s.conn.shutdownInLoop, []))
  | .forceCLoseInLoop => s.conn.forceCLoseInLoop.map s.closing
  | .connectDestroyed => s.connectDestroyed

end State

/-- The interest set alone counts here: a step on a channel that is out of the Poller completes,
where Poller::updateChannel or Poller::removeChannel would fail an assertion. -/
def next (s : State) : Label → Option State
  | .connectEstablished => s.conn.connectEstablished.map s.took
  | .send mem behind arg answer =>
      (s.conn.sendArg mem behind true answer arg).map fun r => s.took r.1
  | .shutdown => some (s.took (s.conn.shutdown true))
  | .forceClose => some (s.took s.conn.forceClose)
  | .forceCLoseWithDelay => some (s.took s.conn.forceCLoseWithDelay)
  | .startRead => some (s.took s.conn.startReadInLoop)
  | .stopRead => some (s.took s.conn.stopReadInLoop)
  | .retrieve left => some (s.took ({ s.conn with inputBuffer := left }, []))
  | .handleRead input => (s.conn.handleRead input).map s.closing
  | .handleWrite answer => (s.conn.handleWrite answer).map s.took
  | .handleClose => s.conn.handleClose.map s.closing
  | .runFunctor mem behind answer =>
      match s.functors with
      | [] => some s
      | f :: rest => { s with functors := rest }.run mem behind answer f
  | .fireTimer locked =>
      -- the timer holds a weak pointer to the connection
      let fired := { s with timers := s.timers - 1 }
      some (if locked then fired.took fired.conn.forceClose else fired)
  | .connectDestroyed => s.connectDestroyed

/-- Messages are shorter than 2^31, the range of the int that carries their length. -/
def Enabled (s : State) : Label → Prop
  | .send _ _ arg _ => arg.length < 2 ^ 31
  | .runFunctor _ _ _ => s.functors ≠ []
  | .fireTimer _ => 0 < s.timers
  | _ => True

def machine : Machine State Label where
  enabled := Enabled
  step := next

instance (s : State) : (label : Label) → Decidable (machine.enabled s label)
  | .send _ _ arg _ => inferInstanceAs (Decidable (arg.length < 2 ^ 31))
  | .runFunctor _ _ _ => inferInstanceAs (Decidable (s.functors ≠ []))
  | .fireTimer _ => inferInstanceAs (Decidable (0 < s.timers))
  | .connectEstablished | .shutdown | .forceClose | .forceCLoseWithDelay | .startRead | .stopRead
  | .retrieve _ | .handleRead _ | .handleWrite _ | .handleClose | .connectDestroyed =>
      isTrue trivial

/-- A connection as its constructor leaves it, with the callbacks that its server has set. -/
def created (name : Bytes) (sockfd : Int) (writeComplete highWater : Bool) (mark : Nat) :
    State where
  conn := { create name sockfd with
    writeCompleteCallback := writeComplete
    highWaterMarkCallback := highWater
    highWaterMark := mark }
  functors := []
  timers := 0

/-- The step executes socket_->shutdownWrite() only with nothing left to send, on a
connection that is closing. -/
def Drained (s : State) (_ : Label) (t : State) : Prop :=
  s.conn.halfCloses < t.conn.halfCloses →
    t.conn.state = .kDisconnecting ∧ t.conn.pending = []

/-- No write() on the socket behind a shutdownWrite(). -/
def NoLaterWrite (socket : Socket) : Prop :=
  ∀ before after, socket = before ++ .shutdownWrite :: after →
    ∀ taken, SocketOp.write taken ∉ after

/-- After the half-close: it is the last thing done to the socket, and nothing was left to
send. -/
structure Closed (c : TcpConnection) : Prop where
  last : ∃ front : Socket, c.socket = front ++ [.shutdownWrite] ∧ front.count .shutdownWrite = 0
  state : c.state = .kDisconnecting ∧ c.pending = [] ∨ c.state = .kDisconnected

/-- The writing flag stands for a non-empty buffer as long as the connection is up. -/
structure Graceful (c : TcpConnection) : Prop where
  sync : c.Up → c.InSync
  quiet : ¬ c.Up → c.channel.isWriting = false
  fresh : c.state = .kConnecting → c.pending = []
  log : c.halfCloses = 0 ∨ Closed c

/-- A functor that a call on the loop thread can leave behind. -/
def Local : Functor → Prop
  | .sendInLoop _ | .shutdownInLoop => False
  | _ => True

/-- What an operation of the connection makes of a graceful one. -/
structure Kept (c : TcpConnection) (r : Outcome) : Prop where
  graceful : Graceful r.1
  drained : c.halfCloses < r.1.halfCloses → r.1.state = .kDisconnecting ∧ r.1.pending = []
  functors : ∀ f, Effect.queueInLoop f ∈ r.2 → Local f

section Operations

variable {c d : TcpConnection} {effects : List Effect}

theorem local_of_passive (quiet : ∀ e ∈ effects, passive e) (f : Functor)
    (queued : Effect.queueInLoop f ∈ effects) : Local f := by
  have calm := quiet _ queued
  cases f with
  | writeCompleteCallback | highWaterMarkCallback => trivial
  | sendInLoop | shutdownInLoop | forceCLoseInLoop | connectDestroyed => exact calm.elim

/-- Before the half-close the connection may be in any state. -/
theorem Graceful.open_of_connected (graceful : Graceful c) (connected : c.state = .kConnected) :
    c.halfCloses = 0 := by
  rcases graceful.log with none | closed
  · exact none
  · rcases closed.state with ⟨state, _⟩ | state
    · cases connected.symm.trans state
    · cases connected.symm.trans state

/-- Nothing is written behind the half-close. -/
theorem Graceful.open_of_writing (graceful : Graceful c) (writing : c.channel.isWriting = true) :
    c.Up ∧ c.halfCloses = 0 := by
  have up : c.Up := by
    by_contra down
    rw [graceful.quiet down] at writing
    cases writing
  refine ⟨up, ?_⟩
  rcases graceful.log with none | closed
  · exact none
  · rcases closed.state with ⟨_, empty⟩ | state
    · exact absurd empty ((graceful.sync up).mp writing)
    · rcases up with up | up <;> cases up.symm.trans state

/-- A connection that is up and has not been half-closed. -/
theorem Graceful.of_open (up : d.Up) (sync : d.InSync) (opened : d.halfCloses = 0) :
    Graceful d := by
  refine ⟨fun _ => sync, fun down => absurd up down, ?_, .inl opened⟩
  intro connecting
  rcases up with up | up <;> cases connecting.symm.trans up

/-- An operation that leaves the socket, the buffer, the writing flag and the state alone. -/
theorem Graceful.frame (graceful : Graceful c) (socket : d.socket = c.socket)
    (pending : d.pending = c.pending) (writing : d.channel.isWriting = c.channel.isWriting)
    (state : d.state = c.state) (functors : ∀ f, Effect.queueInLoop f ∈ effects → Local f) :
    Kept c (d, effects) := by
  have same : d.halfCloses = c.halfCloses := congrArg (List.count SocketOp.shutdownWrite) socket
  have alike : d.Up ↔ c.Up := by rw [Up, Up, state]
  refine ⟨⟨?_, ?_, ?_, ?_⟩, fun more => absurd more (by rw [same]; omega), functors⟩
  · intro up
    rw [InSync, writing, pending]
    exact graceful.sync (alike.mp up)
  · intro down
    rw [writing]
    exact graceful.quiet (fun up => down (alike.mpr up))
  · intro connecting
    rw [pending]
    exact graceful.fresh (state.symm.trans connecting)
  · rcases graceful.log with none | closed
    · exact .inl (same.trans none)
    · refine .inr ⟨?_, ?_⟩
      · rw [socket]
        exact closed.last
      · rw [state, pending]
        exact closed.state

theorem Graceful.refl (graceful : Graceful c) : Kept c (c, []) :=
  graceful.frame rfl rfl rfl rfl fun _ queued => by cases queued

/-- handleClose, and connectDestroyed on a connection that is still up. -/
theorem Graceful.down (graceful : Graceful c) (socket : d.socket = c.socket)
    (state : d.state = .kDisconnected) (silent : d.channel.isWriting = false)
    (functors : ∀ f, Effect.queueInLoop f ∈ effects → Local f) : Kept c (d, effects) := by
  have same : d.halfCloses = c.halfCloses := congrArg (List.count SocketOp.shutdownWrite) socket
  refine ⟨⟨?_, fun _ => silent, ?_, ?_⟩, fun more => absurd more (by rw [same]; omega), functors⟩
  · rintro (up | up) <;> cases up.symm.trans state
  · intro connecting
    cases connecting.symm.trans state
  · rcases graceful.log with none | closed
    · exact .inl (same.trans none)
    · refine .inr ⟨?_, .inr state⟩
      rw [socket]
      exact closed.last

/-- A connection that is up begins to close, without the half-close. -/
theorem Graceful.closing (graceful : Graceful c) (up : c.Up)
    (functors : ∀ f, Effect.queueInLoop f ∈ effects → Local f) :
    Kept c ({ c with state := .kDisconnecting }, effects) := by
  have sync : ({ c with state := .kDisconnecting } : TcpConnection).InSync := graceful.sync up
  refine ⟨⟨fun _ => sync, fun down => absurd (.inr rfl) down, ?_, ?_⟩,
    fun more => absurd more (Nat.lt_irrefl _), functors⟩
  · intro never
    cases never
  rcases graceful.log with none | closed
  · exact .inl none
  · refine .inr ⟨closed.last, .inl ⟨rfl, ?_⟩⟩
    rcases closed.state with ⟨_, empty⟩ | state
    · exact empty
    · rcases up with up | up <;> cases up.symm.trans state

/-- The half-close of a connection that is closing, or its postponement. -/
theorem Graceful.shutdownInLoop (graceful : Graceful c) (closing : c.state = .kDisconnecting)
    (opened : c.halfCloses = 0) : Kept c (c.shutdownInLoop, []) := by
  have sync := graceful.sync (.inr closing)
  unfold TcpConnection.shutdownInLoop
  split
  · exact graceful.refl
  · rename_i silent
    have empty : c.pending = [] := by
      by_contra more
      exact silent (sync.mpr more)
    refine ⟨⟨fun _ => sync, fun down => absurd (.inr closing) down, ?_, ?_⟩,
      fun _ => ⟨closing, empty⟩, fun f queued => by cases queued⟩
    · intro connecting
      cases connecting.symm.trans closing
    · exact .inr ⟨⟨c.socket, rfl, opened⟩, .inl ⟨closing, empty⟩⟩

/-- The second operation follows on the first, which has not half-closed. -/
theorem Kept.trans {r : Outcome} (first : Kept c (d, effects)) (second : Kept d r)
    (same : d.halfCloses = c.halfCloses) : Kept c (r.1, effects ++ r.2) where
  graceful := second.graceful
  drained more := second.drained (by rw [same]; exact more)
  functors f queued := by
    rcases List.mem_append.mp queued with left | right
    · exact first.functors f left
    · exact second.functors f right

theorem sendArg_kept (graceful : Graceful c) (mem : Memory) (behind : Nat → UInt8)
    (answer : WriteResult) (arg : SendArg) :
    ∃ r left, c.sendArg mem behind true answer arg = some (r, left) ∧ Kept c r := by
  obtain ⟨r, left, done, calm, same⟩ := sendArg_calm c mem behind answer arg
  refine ⟨r, left, done, ?_⟩
  by_cases connected : c.state = .kConnected
  · have state := calm.frame.state.trans connected
    have sync := calm.sync (graceful.sync (.inl connected))
    have none := same.trans (graceful.open_of_connected connected)
    exact ⟨.of_open (.inl state) sync none, fun more => absurd more (by rw [same]; omega),
      local_of_passive calm.quiet⟩
  · rw [sendArg_closed c mem behind true answer arg connected] at done
    cases done
    exact graceful.refl

theorem shutdown_kept (graceful : Graceful c) : Kept c (c.shutdown true) := by
  unfold TcpConnection.shutdown
  split
  · rename_i connected
    have none := graceful.open_of_connected connected
    have closing : Kept c ({ c with state := .kDisconnecting }, []) :=
      graceful.closing (.inl connected) fun f queued => by cases queued
    exact closing.trans (closing.graceful.shutdownInLoop rfl none) rfl
  · exact graceful.refl

theorem forceClose_kept (graceful : Graceful c) : Kept c c.forceClose := by
  unfold TcpConnection.forceClose
  split
  · rename_i up
    refine graceful.closing up fun f queued => ?_
    cases List.mem_singleton.mp queued
    trivial
  · exact graceful.refl

theorem forceCLoseWithDelay_kept (graceful : Graceful c) : Kept c c.forceCLoseWithDelay := by
  unfold TcpConnection.forceCLoseWithDelay
  split
  · rename_i up
    refine graceful.closing up fun f queued => ?_
    cases List.mem_singleton.mp queued
  · exact graceful.refl

/-- A change of the interest set as the loop hears of it. -/
theorem no_functor (events : Events) (f : Functor)
    (queued : Effect.queueInLoop f ∈ [Effect.updateChannel events]) : Local f := by
  cases List.mem_singleton.mp queued

theorem startReadInLoop_kept (graceful : Graceful c) : Kept c c.startReadInLoop := by
  unfold startReadInLoop
  split
  · exact graceful.frame rfl rfl rfl rfl (no_functor _)
  · exact graceful.refl

theorem stopReadInLoop_kept (graceful : Graceful c) : Kept c c.stopReadInLoop := by
  unfold stopReadInLoop
  split
  · exact graceful.frame rfl rfl rfl rfl (no_functor _)
  · exact graceful.refl

theorem handleClose_kept (graceful : Graceful c) {r : Outcome} (done : c.handleClose = some r) :
    Kept c r := by
  unfold TcpConnection.handleClose at done
  split at done
  · cases done
    exact graceful.down rfl rfl rfl (no_functor _)
  · cases done

theorem takeDown_kept (graceful : Graceful c) : Kept c c.takeDown :=
  graceful.down rfl rfl rfl (no_functor _)

theorem removeChannel_kept (graceful : Graceful c) {r : Outcome}
    (done : c.removeChannel = some r) : Kept c r := by
  obtain ⟨channel, removed, rfl⟩ := Option.map_eq_some_iff.mp done
  unfold Channel.remove at removed
  split at removed
  · cases removed
    refine graceful.frame rfl rfl rfl rfl fun f queued => ?_
    cases List.mem_singleton.mp queued
  · cases removed

theorem forceCLoseInLoop_kept (graceful : Graceful c) {r : Outcome}
    (done : c.forceCLoseInLoop = some r) : Kept c r := by
  unfold forceCLoseInLoop at done
  split at done
  · exact handleClose_kept graceful done
  · cases done
    exact graceful.refl

theorem connectEstablished_kept (graceful : Graceful c) {r : Outcome}
    (done : c.connectEstablished = some r) : Kept c r := by
  unfold TcpConnection.connectEstablished at done
  split at done
  · rename_i connecting
    cases done
    have none : c.halfCloses = 0 := by
      rcases graceful.log with none | closed
      · exact none
      · rcases closed.state with ⟨state, _⟩ | state <;> cases connecting.symm.trans state
    have silent : c.channel.isWriting = false := by
      refine graceful.quiet ?_
      rintro (up | up) <;> cases connecting.symm.trans up
    refine ⟨.of_open (.inl rfl) ?_ none, fun more => absurd more (Nat.lt_irrefl _), no_functor _⟩
    constructor
    · intro writing
      exact absurd (silent.symm.trans writing) (by decide)
    · intro more
      exact absurd (graceful.fresh connecting) more
  · cases done

theorem handleRead_kept (graceful : Graceful c) (input : Option Bytes) {r : Outcome}
    (done : c.handleRead input = some r) : Kept c r := by
  obtain ⟨read, _, done⟩ := Option.bind_eq_some_iff.mp done
  have stored : Kept c ({ c with inputBuffer := read }, []) :=
    graceful.frame rfl rfl rfl rfl fun f queued => by cases queued
  split at done
  · have closed := handleClose_kept stored.graceful done
    exact stored.trans closed rfl
  · cases done
    exact stored

/-- The end of handleWrite: the buffer has drained, and a connection that is closing gets
its half-close now. -/
theorem drained_kept (up : d.Up) (empty : d.pending = []) (opened : d.halfCloses = 0) :
    Graceful d.drained.1 ∧ (0 < d.drained.1.halfCloses →
      d.drained.1.state = .kDisconnecting ∧ d.drained.1.pending = []) := by
  have sync : (d.updateChannel d.channel.disableWriting).1.InSync := by
    constructor
    · intro writing
      cases writing
    · intro more
      exact absurd empty more
  have silent : Graceful (d.updateChannel d.channel.disableWriting).1 := .of_open up sync opened
  unfold drained
  dsimp only
  split
  · rename_i closing
    have closed := silent.shutdownInLoop closing opened
    exact ⟨closed.graceful, fun more => closed.drained (opened.trans_lt more)⟩
  · exact ⟨silent, fun more => absurd opened (Nat.ne_of_gt more)⟩

theorem handleWrite_kept (graceful : Graceful c) (answer : WriteResult) {r : Outcome}
    (done : c.handleWrite answer = some r) : Kept c r := by
  have quiet := local_of_passive (handleWrite_passive c answer r done)
  have sync : c.InSync → r.1.InSync := by
    obtain ⟨r', done', _, _, sync⟩ := handleWrite_spec c answer
    cases done.symm.trans done'
    exact sync
  rcases handleWrite_cases c answer with ⟨_, same⟩ | ⟨writing, _, same⟩ |
    ⟨k, out, writing, _, _, _, same⟩ | ⟨k, out, writing, _, _, empty, same⟩
  · cases done.symm.trans same
    exact graceful.refl
  · obtain ⟨up, none⟩ := graceful.open_of_writing writing
    cases done.symm.trans same
    have opened : (c.wrote []).halfCloses = 0 := (wrote_halfCloses c []).trans none
    exact ⟨.of_open up (sync (graceful.sync up)) opened,
      fun more => absurd opened (Nat.ne_of_gt (Nat.zero_lt_of_lt more)), quiet⟩
  · obtain ⟨up, none⟩ := graceful.open_of_writing writing
    cases done.symm.trans same
    have opened : (c.took k out).halfCloses = 0 := (wrote_halfCloses c _).trans none
    exact ⟨.of_open up (sync (graceful.sync up)) opened,
      fun more => absurd opened (Nat.ne_of_gt (Nat.zero_lt_of_lt more)), quiet⟩
  · obtain ⟨up, none⟩ := graceful.open_of_writing writing
    cases done.symm.trans same
    have opened : (c.took k out).halfCloses = 0 := (wrote_halfCloses c _).trans none
    have closed := drained_kept (d := c.took k out) up empty opened
    exact ⟨closed.1, fun more => closed.2 (Nat.zero_lt_of_lt more), quiet⟩

section Runs

variable {s t : State}

theorem foldl_effect (effects : List Effect) (s : State) :
    (effects.foldl State.effect s).conn = s.conn ∧
      ∀ f ∈ (effects.foldl State.effect s).functors,
        f ∈ s.functors ∨ Effect.queueInLoop f ∈ effects := by
  induction effects generalizing s with
  | nil => exact ⟨rfl, fun f member => .inl member⟩
  | cons first rest ih =>
      obtain ⟨conn, functors⟩ := ih (s.effect first)
      rw [List.foldl_cons]
      refine ⟨conn.trans (by cases first <;> rfl), ?_⟩
      intro f member
      rcases functors f member with before | later
      · cases first with
        | queueInLoop g =>
            rcases List.mem_append.mp before with old | new
            · exact .inl old
            · rw [List.mem_singleton.mp new]
              exact .inr (List.mem_cons_self ..)
        | runAfterForceClose | updateChannel | removeChannel => exact .inl before
      · exact .inr (List.mem_cons_of_mem _ later)

theorem took_conn (r : Outcome) : (s.took r).conn = r.1 := (foldl_effect r.2 _).1

theorem closing_conn (r : Outcome) : (s.closing r).conn = r.1 := by
  unfold State.closing
  split
  · exact took_conn r
  · exact took_conn r

structure Invariant (s : State) : Prop where
  graceful : Graceful s.conn
  functors : ∀ f ∈ s.functors, Local f

/-- A step that keeps the invariant and half-closes only what has been drained. -/
structure Moved (s t : State) : Prop where
  invariant : Invariant t
  drained : s.conn.halfCloses < t.conn.halfCloses →
    t.conn.state = .kDisconnecting ∧ t.conn.pending = []

theorem Invariant.refl (inv : Invariant s) : Moved s s :=
  ⟨inv, fun more => absurd more (Nat.lt_irrefl _)⟩

theorem Invariant.took (inv : Invariant s) {r : Outcome} (kept : Kept s.conn r) :
    Moved s (s.took r) := by
  refine ⟨⟨?_, ?_⟩, ?_⟩
  · rw [took_conn]
    exact kept.graceful
  · intro f member
    rcases (foldl_effect r.2 _).2 f member with old | new
    · exact inv.functors f old
    · exact kept.functors f new
  · rw [took_conn]
    exact kept.drained

theorem Invariant.closing (inv : Invariant s) {r : Outcome} (kept : Kept s.conn r) :
    Moved s (s.closing r) := by
  have moved := inv.took kept
  unfold State.closing
  split
  · exact moved
  · refine ⟨⟨moved.invariant.graceful, ?_⟩, moved.drained⟩
    intro f member
    rcases List.mem_append.mp member with old | new
    · exact moved.invariant.functors f old
    · rw [List.mem_singleton.mp new]
      trivial

theorem connectDestroyed_moved (inv : Invariant s) (done : s.connectDestroyed = some t) :
    Moved s t := by
  obtain ⟨r, removed, rfl⟩ := Option.map_eq_some_iff.mp done
  split at removed
  · rename_i connected
    have first := inv.took (takeDown_kept inv.graceful)
    rw [if_pos connected]
    have second := first.invariant.took (removeChannel_kept first.invariant.graceful removed)
    refine ⟨second.invariant, fun more => second.drained ?_⟩
    rw [took_conn]
    exact more
  · rename_i other
    rw [if_neg other]
    exact inv.took (removeChannel_kept inv.graceful removed)

theorem run_moved (inv : Invariant s) {mem : Memory} {behind : Nat → UInt8}
    {answer : WriteResult} {f : Functor} (own : Local f)
    (done : s.run mem behind answer f = some t) : Moved s t := by
  cases f with
  | writeCompleteCallback | highWaterMarkCallback =>
      cases done
      exact inv.refl
  | sendInLoop | shutdownInLoop => exact own.elim
  | forceCLoseInLoop =>
      obtain ⟨r, closed, rfl⟩ := Option.map_eq_some_iff.mp done
      exact inv.closing (forceCLoseInLoop_kept inv.graceful closed)
  | connectDestroyed => exact connectDestroyed_moved inv done

theorem next_moved (inv : Invariant s) {label : Label} (moved : next s label = some t) :
    Moved s t := by
  have graceful := inv.graceful
  cases label with
  | connectEstablished =>
      obtain ⟨r, done, rfl⟩ := Option.map_eq_some_iff.mp moved
      exact inv.took (connectEstablished_kept graceful done)
  | send mem behind arg answer =>
      obtain ⟨r, left, done, kept⟩ := sendArg_kept graceful mem behind answer arg
      rw [next, done, Option.map_some] at moved
      cases moved
      exact inv.took kept
  | shutdown =>
      cases moved
      exact inv.took (shutdown_kept graceful)
  | forceClose =>
      cases moved
      exact inv.took (forceClose_kept graceful)
  | forceCLoseWithDelay =>
      cases moved
      exact inv.took (forceCLoseWithDelay_kept graceful)
  | startRead =>
      cases moved
      exact inv.took (startReadInLoop_kept graceful)
  | stopRead =>
      cases moved
      exact inv.took (stopReadInLoop_kept graceful)
  | retrieve left =>
      cases moved
      exact inv.took (graceful.frame rfl rfl rfl rfl fun f queued => by cases queued)
  | handleRead input =>
      obtain ⟨r, done, rfl⟩ := Option.map_eq_some_iff.mp moved
      exact inv.closing (handleRead_kept graceful input done)
  | handleWrite answer =>
      obtain ⟨r, done, rfl⟩ := Option.map_eq_some_iff.mp moved
      exact inv.took (handleWrite_kept graceful answer done)
  | handleClose =>
      obtain ⟨r, done, rfl⟩ := Option.map_eq_some_iff.mp moved
      exact inv.closing (handleClose_kept graceful done)
  | runFunctor mem behind answer =>
      dsimp only [next] at moved
      split at moved
      · cases moved
        exact inv.refl
      · rename_i f rest queue
        have later : Invariant { s with functors := rest } := by
          refine ⟨graceful, fun g member => inv.functors g ?_⟩
          rw [queue]
          exact List.mem_cons_of_mem _ member
        have ran := run_moved later (inv.functors f (by rw [queue]; exact List.mem_cons_self ..))
          moved
        exact ⟨ran.invariant, ran.drained⟩
  | fireTimer locked =>
      cases moved
      have fired : Invariant { s with timers := s.timers - 1 } := ⟨graceful, inv.functors⟩
      cases locked with
      | false => exact ⟨fired, fun more => absurd more (Nat.lt_irrefl _)⟩
      | true =>
          have closed := fired.took (forceClose_kept fired.graceful)
          exact ⟨closed.invariant, closed.drained⟩
  | connectDestroyed => exact connectDestroyed_moved inv moved

theorem next_preserves : machine.Preserves Invariant :=
  fun _ _ _ inv _ moved => (next_moved inv moved).invariant

theorem created_invariant (name : Bytes) (sockfd : Int) (writeComplete highWater : Bool)
    (mark : Nat) : Invariant (created name sockfd writeComplete highWater mark) := by
  refine ⟨⟨?_, fun _ => rfl, fun _ => rfl, .inl rfl⟩, fun f member => by cases member⟩
  rintro (up | up) <;> cases up

/-- Behind the half-close the log of the socket ends. -/
theorem Graceful.noLaterWrite {c : TcpConnection} (graceful : Graceful c) :
    c.halfCloses ≤ 1 ∧ NoLaterWrite c.socket := by
  rcases graceful.log with none | closed
  · refine ⟨by omega, fun before after split => ?_⟩
    have one : 0 < c.halfCloses := by
      rw [halfCloses, split, List.count_append, List.count_cons_self]
      omega
    omega
  · obtain ⟨front, socket, zero⟩ := closed.last
    have one : c.halfCloses = 1 := by
      rw [halfCloses, socket, List.count_append, zero]
      rfl
    refine ⟨by omega, fun before after split taken member => ?_⟩
    -- an entry behind the half-close would leave a second one in front
    rcases List.eq_nil_or_concat' after with rfl | ⟨middle, last, rfl⟩
    · cases member
    · rw [socket, ← List.cons_append, ← List.append_assoc] at split
      have inside := (List.append_inj' split rfl).1
      rw [inside, List.count_append, List.count_cons_self] at zero
      omega

/-- Graceful half-close: in every run on the loop thread the writing flag of a connection
that is up stands for a non-empty buffer, shutdownWrite() is executed at most once, with
nothing left to send on a connection that is closing, and no write() follows it. -/
theorem half_close_graceful (name : Bytes) (sockfd : Int) (writeComplete highWater : Bool)
    (mark : Nat) (labels : List Label)
    (run : machine.Run (created name sockfd writeComplete highWater mark) labels s) :
    (s.conn.state = .kConnected ∨ s.conn.state = .kDisconnecting →
      (s.conn.channel.isWriting = true ↔ s.conn.pending ≠ [])) ∧
    s.conn.halfCloses ≤ 1 ∧
    machine.Along Drained (created name sockfd writeComplete highWater mark) labels ∧
    NoLaterWrite s.conn.socket := by
  have start := created_invariant name sockfd writeComplete highWater mark
  have inv := run.invariant next_preserves start
  obtain ⟨once, last⟩ := inv.graceful.noLaterWrite
  refine ⟨inv.graceful.sync, once, ?_, last⟩
  exact run.along next_preserves (fun _ _ _ inv _ moved => (next_moved inv moved).drained) start

end Runs

/-- A message is buffered, shutdown waits for it, and the drain half-closes; a message sent
behind it goes nowhere, and the peer's end of stream closes the connection. -/
def postponed : List Label :=
  [.connectEstablished, .send letters (fun _ => 0) (.pointer 0 2) (.accepted 1), .shutdown,
    .send letters (fun _ => 0) (.pointer 0 2) (.accepted 2), .handleWrite (.failed .ewouldblock),
    .handleWrite (.accepted 1), .handleWrite (.accepted 1), .shutdown, .handleRead (some [])]

theorem half_close_postponed :
    ∃ s, machine.Run (created [] 5 true true 1) postponed s ∧
      s.conn.socket = [.write [65], .write [], .write [66], .shutdownWrite] ∧
      s.conn.halfCloses ≤ 1 ∧ NoLaterWrite s.conn.socket := by
  obtain ⟨s, run, seen⟩ := machine.exists_run_of_play (created [] 5 true true 1) postponed
    (fun s => s.conn.socket) [.write [65], .write [], .write [66], .shutdownWrite]
    (by decide +kernel)
  have closed := half_close_graceful [] 5 true true 1 postponed run
  exact ⟨s, run, seen, closed.2.1, closed.2.2.2⟩

end Operations

end Tundra.HalfClose
