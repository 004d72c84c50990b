import Mathlib.Data.Finset.Erase
import Mathlib.Data.Finset.Insert
import Mathlib.Logic.Function.Basic
import Tundra.Library.Machine
import Tundra.Net.TcpConnection

set_option autoImplicit false

/- net/TcpServer with worker threads: which loop a connection belongs to, and which thread
its functions run on. newConnection takes a loop from the pool for connectEstablished, and
gives the constructor of TcpConnection its own one. Of a loop there are its queue and the
channels that its Poller knows; a call of assertInLoopThread that fails logs an error and
goes on. -/
namespace Tundra.LoopOwnership

open Library

/-- An EventLoop. Every loop has a thread of its own that runs it. -/
inductive Loop
  | base
  | worker (i : Nat)
deriving DecidableEq

/-- The thread of a loop, or one that runs no loop. -/
abbrev Thread := Option Loop

structure EventLoopThreadPool where
  loops : List Loop
  next : Nat

namespace EventLoopThreadPool

def start (numThreads : Nat) : EventLoopThreadPool := ⟨(List.range numThreads).map .worker, 0⟩

def getNextLoop (pool : EventLoopThreadPool) : Option (Loop × EventLoopThreadPool) :=
  if pool.loops = [] then some (.base, pool)
  else
    (pool.loops[pool.next]?).map fun loop =>
      (loop, { pool with next := (pool.next + 1) % pool.loops.length })

end EventLoopThreadPool

/-- loop_ of a TcpConnection and loop_ of its channel. `establishedOn` is the thread that
connectEstablished has run on, `destroyed` that connectDestroyed has run. -/
structure Connection where
  loop : Loop
  ownerLoop : Loop
  state : StateE
  establishedOn : Option Thread
  destroyed : Bool
deriving DecidableEq

def Connection.create (loop : Loop) : Connection := ⟨loop, loop, .kConnecting, none, false⟩

/-- What is bound and handed to a loop. The flags say whether the interest set of the
channel is changed. -/
inductive Functor
  | connectEstablished (conn : Nat)
  | sendInLoop (conn : Nat) (enableWriting : Bool)
  | shutdownInLoop (conn : Nat)
  | forceCLoseInLoop (conn : Nat)
  | startReadInLoop (conn : Nat) (enableReading : Bool)
  | stopReadInLoop (conn : Nat) (disableReading : Bool)
  | removeConnectionInLoop (conn : Nat)
  | connectDestroyed (conn : Nat)
deriving DecidableEq

/-- `connections` are all that newConnection has made, in that order, and `aborts` the
calls of assertInLoopThread that failed, with the thread they were made on. -/
structure State where
  pool : EventLoopThreadPool
  connections : List Connection
  pendingFunctors : Loop → List Functor
  channels : Loop → Finset Nat
  aborts : List (Loop × Thread)

namespace State

def create (numThreads : Nat) : State where
  pool := .start numThreads
  connections := []
  pendingFunctors _ := []
  channels _ := ∅
  aborts := []

def assertInLoopThread (s : State) (loop : Loop) (thread : Thread) : State :=
  if thread = some loop then s else { s with aborts := s.aborts ++ [(loop, thread)] }

def setConn (s : State) (i : Nat) (c : Connection) : State :=
  { s with connections := s.connections.set i c }

def queueInLoop (s : State) (loop : Loop) (f : Functor) : State :=
  { s with
    pendingFunctors :=
      Function.update s.pendingFunctors loop (s.pendingFunctors loop ++ [f]) }

/-- EventLoop::updateChannel, and Poller::updateChannel which asserts the thread again. -/
def updateChannel (s : State) (loop : Loop) (i : Nat) (thread : Thread) : State :=
  let s := (s.assertInLoopThread loop thread).assertInLoopThread loop thread
  { s with channels := Function.update s.channels loop (insert i (s.channels loop)) }

/-- The Poller asserts that it knows the channel. -/
def removeChannel (s : State) (loop : Loop) (i : Nat) (thread : Thread) : Option State :=
  let s := (s.assertInLoopThread loop thread).assertInLoopThread loop thread
  if i ∈ s.channels loop then
    some { s with channels := Function.update s.channels loop ((s.channels loop).erase i) }
  else none

def removeConnectionInLoop (s : State) (i : Nat) (thread : Thread) : Option State :=
  let s := s.assertInLoopThread .base thread
  (s.connections[i]?).map fun c => s.queueInLoop c.loop (.connectDestroyed i)

/-- removeConnection, which is the closeCallback_ of every connection. -/
def removeConnection (s : State) (i : Nat) (thread : Thread) : Option State :=
  if thread = some .base then s.removeConnectionInLoop i thread
  else some (s.queueInLoop .base (.removeConnectionInLoop i))

def handleClose (s : State) (i : Nat) (thread : Thread) : Option State :=
  (s.connections[i]?).bind fun c =>
    let s := s.assertInLoopThread c.loop thread
    if c.state = .kConnected ∨ c.state = .kDisconnecting then
      ((s.setConn i { c with state := .kDisconnected }).updateChannel c.ownerLoop i
        thread).removeConnection i thread
    else none

def connectEstablished (s : State) (i : Nat) (thread : Thread) : Option State :=
  (s.connections[i]?).bind fun c =>
    let s := s.assertInLoopThread c.loop thread
    if c.state = .kConnecting then
      some ((s.setConn i
        { c with state := .kConnected, establishedOn := some thread }).updateChannel
          c.ownerLoop i thread)
    else none

def connectDestroyed (s : State) (i : Nat) (thread : Thread) : Option State :=
  (s.connections[i]?).bind fun c =>
    let s := s.assertInLoopThread c.loop thread
    let s :=
      if c.state = .kConnected then
        (s.setConn i { c with state := .kDisconnected, destroyed := true }).updateChannel
          c.ownerLoop i thread
      else s.setConn i { c with destroyed := true }
    s.removeChannel c.ownerLoop i thread

/-- sendInLoop, shutdownInLoop, startReadInLoop and stopReadInLoop as far as loops go. -/
def touchInLoop (s : State) (i : Nat) (update : Bool) (thread : Thread) : Option State :=
  (s.connections[i]?).map fun c =>
    let s := s.assertInLoopThread c.loop thread
    if update then s.updateChannel c.ownerLoop i thread else s

def forceCLoseInLoop (s : State) (i : Nat) (thread : Thread) : Option State :=
  (s.connections[i]?).bind fun c =>
    let s := s.assertInLoopThread c.loop thread
    if c.state = .kConnected ∨ c.state = .kDisconnecting then s.handleClose i thread else some s

def perform (s : State) (thread : Thread) : Functor → Option State
  | .connectEstablished i => s.connectEstablished i thread
  | .sendInLoop i enableWriting => s.touchInLoop i enableWriting thread
  | .shutdownInLoop i => s.touchInLoop i false thread
  | .forceCLoseInLoop i => s.forceCLoseInLoop i thread
  | .startReadInLoop i enableReading => s.touchInLoop i enableReading thread
  | .stopReadInLoop i disableReading => s.touchInLoop i disableReading thread
  | .removeConnectionInLoop i => s.removeConnectionInLoop i thread
  | .connectDestroyed i => s.connectDestroyed i thread

def runInLoop (s : State) (loop : Loop) (f : Functor) (thread : Thread) : Option State :=
  if thread = some loop then s.perform thread f else some (s.queueInLoop loop f)

/-- newConnection, which the acceptor calls on the thread of the base loop. -/
def newConnection (s : State) (thread : Thread) : Option State :=
  -- once for itself and once in getNextLoop
  let s := (s.assertInLoopThread .base thread).assertInLoopThread .base thread
  s.pool.getNextLoop.bind fun (ioLoop, pool) =>
    runInLoop { s with pool := pool, connections := s.connections ++ [Connection.create .base] }
      ioLoop (.connectEstablished s.connections.length) thread

/-- handleRead has read something, or the end of the stream. -/
def handleRead (s : State) (i : Nat) (eof : Bool) (thread : Thread) : Option State :=
  (s.connections[i]?).bind fun c =>
    let s := s.assertInLoopThread c.loop thread
    if eof then s.handleClose i thread else some s

/-- handleWrite has written the last byte or not; after the last one disableWriting comes,
and shutdownInLoop if the connection is being closed. -/
def handleWrite (s : State) (i : Nat) (drained : Bool) (thread : Thread) : Option State :=
  (s.connections[i]?).bind fun c =>
    let s := s.assertInLoopThread c.loop thread
    if drained then
      let s := s.updateChannel c.ownerLoop i thread
      if c.state = .kDisconnecting then s.touchInLoop i false thread else some s
    else some s

end State

/-- The events of a connection's channel. handleError only logs. -/
inductive Event
  | read (eof : Bool)
  | write (drained : Bool)
  | close
  | error
deriving DecidableEq

/-- What user code may call, on any thread. forceCLoseWithDelay comes down to a forceClose
on the thread of the loop. -/
inductive UserCall
  | send (conn : Nat) (enableWriting : Bool)
  | shutdown (conn : Nat)
  | forceClose (conn : Nat)
  | startRead (conn : Nat) (enableReading : Bool)
  | stopRead (conn : Nat) (disableReading : Bool)
deriving DecidableEq

inductive Label
  | accept
  | runFunctor (loop : Loop)
  | event (loop : Loop) (conn : Nat) (event : Event)
  | call (thread : Thread) (call : UserCall)
deriving DecidableEq

namespace State

def handle (s : State) (i : Nat) (thread : Thread) : Event → Option State
  | .read eof => s.handleRead i eof thread
  | .write drained => s.handleWrite i drained thread
  | .close => s.handleClose i thread
  | .error => some s

def userCall (s : State) (thread : Thread) : UserCall → Option State
  | .send i enableWriting =>
      (s.connections[i]?).bind fun c =>
        if c.state = .kConnected then s.runInLoop c.loop (.sendInLoop i enableWriting) thread
        else some s
  | .shutdown i =>
      (s.connections[i]?).bind fun c =>
        if c.state = .kConnected then
          (s.setConn i { c with state := .kDisconnecting }).runInLoop c.loop (.shutdownInLoop i)
            thread
        else some s
  | .forceClose i =>
      (s.connections[i]?).map fun c =>
        if c.state = .kConnected ∨ c.state = .kDisconnecting then
          (s.setConn i { c with state := .kDisconnecting }).queueInLoop c.loop (.forceCLoseInLoop i)
        else s
  | .startRead i enableReading =>
      (s.connections[i]?).bind fun c => s.runInLoop c.loop (.startReadInLoop i enableReading) thread
  | .stopRead i disableReading =>
      (s.connections[i]?).bind fun c => s.runInLoop c.loop (.stopReadInLoop i disableReading) thread

/-- A loop runs the functors of its queue in order and the callbacks of the channels that
its Poller knows. -/
def Enabled (s : State) : Label → Prop
  | .accept => True
  | .runFunctor loop => s.pendingFunctors loop ≠ []
  | .event loop i _ => i ∈ s.channels loop
  | .call _ _ => True

instance decidableEnabled (s : State) : (label : Label) → Decidable (s.Enabled label)
  | .accept => inferInstanceAs (Decidable True)
  | .runFunctor loop => inferInstanceAs (Decidable (s.pendingFunctors loop ≠ []))
  | .event loop i _ => inferInstanceAs (Decidable (i ∈ s.channels loop))
  | .call _ _ => inferInstanceAs (Decidable True)

def next (s : State) : Label → Option State
  | .accept => s.newConnection (some .base)
  | .runFunctor loop =>
      match s.pendingFunctors loop with
      | [] => none
      | f :: rest =>
          perform { s with pendingFunctors := Function.update s.pendingFunctors loop rest }
            (some loop) f
  | .event loop i event => s.handle i (some loop) event
  | .call thread call => s.userCall thread call

end State

def machine : Machine State Label := ⟨State.Enabled, State.next⟩

instance decidableAllowed (s : State) (label : Label) : Decidable (machine.enabled s label) :=
  inferInstanceAs (Decidable (s.Enabled label))

/-- The loop that the pool gives to the connection with this number. -/
def roundRobin (n k : Nat) : Loop := if n = 0 then .base else .worker (k % n)

/-- The loop that a functor is handed to. -/
def Functor.home (n : Nat) : Functor → Loop
  | .connectEstablished i => roundRobin n i
  | .sendInLoop _ _ | .shutdownInLoop _ | .forceCLoseInLoop _ | .startReadInLoop _ _
  | .stopReadInLoop _ _ | .removeConnectionInLoop _ | .connectDestroyed _ => .base

namespace State

/-- Where connections, functors and channels are, with a pool of `n` threads. All but
connectEstablished is left to the base loop. -/
structure Invariant (n : Nat) (s : State) : Prop where
  loops : s.pool.loops = (List.range n).map .worker
  next : 0 < n → s.pool.next = s.connections.length % n
  owned : ∀ c ∈ s.connections, c.loop = .base ∧ c.ownerLoop = .base
  queued : ∀ loop f, f ∈ s.pendingFunctors loop → loop = f.home n
  registered : ∀ loop i, i ∈ s.channels loop → loop = .base
  established : ∀ i c thread, s.connections[i]? = some c → c.establishedOn = some thread →
    thread = some (roundRobin n i) ∧ (c.destroyed = false → i ∈ s.channels .base) ∧
      (thread ≠ some .base → (.base, thread) ∈ s.aborts)
  aborted : ∀ a ∈ s.aborts, a.2 ≠ some .base ∧
    ∃ k < s.connections.length, a.2 = some (roundRobin n k)

theorem create_invariant (n : Nat) : Invariant n (create n) := by
  constructor
  · rfl
  · intro _
    exact (Nat.zero_mod n).symm
  · intro c member
    cases member
  · intro loop f member
    cases member
  · intro loop i member
    exact absurd member (Finset.notMem_empty i)
  · intro i c thread found
    cases found
  · intro a member
    cases member

@[simp] theorem assertInLoopThread_base (s : State) :
    s.assertInLoopThread .base (some .base) = s := if_pos rfl

theorem assertInLoopThread_eq (s : State) (loop : Loop) (thread : Thread) :
    s.assertInLoopThread loop thread =
      { s with aborts := s.aborts ++ if thread = some loop then [] else [(loop, thread)] } := by
  unfold assertInLoopThread
  split
  · rw [List.append_nil]
  · rfl

theorem updateChannel_connections (s : State) (loop : Loop) (i : Nat) (thread : Thread) :
    (s.updateChannel loop i thread).connections = s.connections := by
  simp only [updateChannel, assertInLoopThread_eq]

theorem Invariant.loop_base {n : Nat} {s : State} (inv : Invariant n s) {i : Nat} {c : Connection}
    (found : s.connections[i]? = some c) : c.loop = .base ∧ c.ownerLoop = .base :=
  inv.owned c (List.mem_of_getElem? found)

/-- A functor is queued at the loop it belongs to. -/
theorem Invariant.queueInLoop {n : Nat} {s : State} (inv : Invariant n s) (f : Functor) :
    Invariant n (s.queueInLoop (f.home n) f) := by
  refine ⟨inv.loops, inv.next, inv.owned, ?_, inv.registered, inv.established, inv.aborted⟩
  intro loop g member
  by_cases same : loop = f.home n
  · have there : g ∈ s.pendingFunctors (f.home n) ++ [f] := by
      simpa only [State.queueInLoop, same, Function.update_self] using member
    rcases List.mem_append.mp there with old | new
    · rw [same]
      exact inv.queued _ g old
    · rw [List.mem_singleton.mp new]
      exact same
  · have old : g ∈ s.pendingFunctors loop := by
      simpa only [State.queueInLoop, Function.update_of_ne same] using member
    exact inv.queued loop g old

theorem Invariant.dequeue {n : Nat} {s : State} (inv : Invariant n s) (loop : Loop) (f : Functor)
    (rest : List Functor) (pending : s.pendingFunctors loop = f :: rest) :
    Invariant n { s with pendingFunctors := Function.update s.pendingFunctors loop rest } := by
  refine ⟨inv.loops, inv.next, inv.owned, ?_, inv.registered, inv.established, inv.aborted⟩
  intro other g member
  by_cases same : other = loop
  · have later : g ∈ rest := by
      simpa only [same, Function.update_self] using member
    apply inv.queued other g
    rw [same, pending]
    exact List.mem_cons_of_mem f later
  · have old : g ∈ s.pendingFunctors other := by
      simpa only [Function.update_of_ne same] using member
    exact inv.queued other g old

/-- A store to state_ moves nothing to another loop. -/
theorem Invariant.setState {n : Nat} {s : State} (inv : Invariant n s) {i : Nat} {c : Connection}
    (found : s.connections[i]? = some c) (state : StateE) (destroyed : Bool)
    (gone : destroyed = false → c.destroyed = false) :
    Invariant n (s.setConn i { c with state := state, destroyed := destroyed }) := by
  have length : (s.setConn i { c with state := state, destroyed := destroyed }).connections.length =
      s.connections.length := List.length_set
  refine ⟨inv.loops, ?_, ?_, inv.queued, inv.registered, ?_, by rw [length]; exact inv.aborted⟩
  · rw [length]
    exact inv.next
  · intro d member
    rcases List.mem_or_eq_of_mem_set member with old | rfl
    · exact inv.owned d old
    · have loops := inv.loop_base found
      exact loops
  · intro j d thread there on
    rw [setConn, List.getElem?_set] at there
    split at there
    · rename_i same
      split at there
      · rw [Option.some.injEq] at there
        rw [← there] at on ⊢
        rw [← same]
        obtain ⟨chosen, live, logged⟩ := inv.established i c thread found on
        exact ⟨chosen, fun kept => live (gone kept), logged⟩
      · cases there
    · exact inv.established j d thread there on

theorem Invariant.updateChannel {n : Nat} {s : State} (inv : Invariant n s) (i : Nat) :
    Invariant n (s.updateChannel .base i (some .base)) := by
  have more : ∀ j, j ∈ s.channels .base →
      j ∈ (s.updateChannel .base i (some .base)).channels .base := by
    intro j member
    simp only [State.updateChannel, assertInLoopThread_base, Function.update_self]
    exact Finset.mem_insert_of_mem member
  have same : s.updateChannel .base i (some .base) = { s with
      channels := (s.updateChannel .base i (some .base)).channels } := by
    simp only [State.updateChannel, assertInLoopThread_base]
  rw [same]
  refine ⟨inv.loops, inv.next, inv.owned, inv.queued, ?_, ?_, inv.aborted⟩
  · intro loop j member
    by_cases base : loop = .base
    · exact base
    · apply inv.registered loop j
      simpa only [State.updateChannel, assertInLoopThread_base, Function.update_of_ne base]
        using member
  · intro j c thread found on
    obtain ⟨chosen, live, logged⟩ := inv.established j c thread found on
    exact ⟨chosen, fun kept => more j (live kept), logged⟩

theorem Invariant.removeChannel {n : Nat} {s t : State} (inv : Invariant n s) (i : Nat)
    (gone : ∀ c, s.connections[i]? = some c → c.destroyed = true)
    (done : s.removeChannel .base i (some .base) = some t) : Invariant n t := by
  simp only [State.removeChannel, assertInLoopThread_base] at done
  split at done
  · rw [Option.some.injEq] at done
    rw [← done]
    refine ⟨inv.loops, inv.next, inv.owned, inv.queued, ?_, ?_, inv.aborted⟩
    · intro loop j member
      by_cases base : loop = .base
      · exact base
      · apply inv.registered loop j
        simpa only [Function.update_of_ne base] using member
    · intro j c thread found on
      obtain ⟨chosen, live, logged⟩ := inv.established j c thread found on
      refine ⟨chosen, fun kept => ?_, logged⟩
      have other : j ≠ i := by
        rintro rfl
        rw [gone c found] at kept
        cases kept
      simpa only [Function.update_self] using Finset.mem_erase.mpr ⟨other, live kept⟩
  · cases done

theorem Invariant.removeConnection {n : Nat} {s t : State} (inv : Invariant n s) (i : Nat)
    (done : s.removeConnection i (some .base) = some t) : Invariant n t := by
  simp only [State.removeConnection, removeConnectionInLoop, assertInLoopThread_base, ↓reduceIte,
    Option.map_eq_some_iff] at done
  obtain ⟨c, found, rfl⟩ := done
  rw [(inv.loop_base found).1]
  exact inv.queueInLoop (.connectDestroyed i)

theorem Invariant.handleClose {n : Nat} {s t : State} (inv : Invariant n s) (i : Nat)
    (done : s.handleClose i (some .base) = some t) : Invariant n t := by
  obtain ⟨c, found, rest⟩ := Option.bind_eq_some_iff.mp done
  obtain ⟨loop, owner⟩ := inv.loop_base found
  simp only [loop, owner, assertInLoopThread_base] at rest
  split at rest
  · have stored := inv.setState found .kDisconnected c.destroyed id
    rw [loop, owner] at stored
    exact (stored.updateChannel i).removeConnection i rest
  · cases rest

theorem Invariant.connectDestroyed {n : Nat} {s t : State} (inv : Invariant n s) (i : Nat)
    (done : s.connectDestroyed i (some .base) = some t) : Invariant n t := by
  obtain ⟨c, found, rest⟩ := Option.bind_eq_some_iff.mp done
  obtain ⟨loop, owner⟩ := inv.loop_base found
  have known : i < s.connections.length := (List.getElem?_eq_some_iff.mp found).1
  have marked : ∀ (u : State) (d : Connection), u.connections = s.connections.set i d →
      d.destroyed = true → ∀ e, u.connections[i]? = some e → e.destroyed = true := by
    intro u d stored destroyed e there
    rw [stored, List.getElem?_set_self known, Option.some.injEq] at there
    rw [← there]
    exact destroyed
  simp only [loop, owner, assertInLoopThread_base] at rest
  split at rest
  · have stored := inv.setState found .kDisconnected true (by simp)
    rw [loop, owner] at stored
    refine (stored.updateChannel i).removeChannel i ?_ rest
    exact marked _ _ (updateChannel_connections ..) rfl
  · have stored := inv.setState found c.state true (by simp)
    rw [loop, owner] at stored
    exact stored.removeChannel i (marked _ _ rfl rfl) rest

theorem Invariant.touchInLoop {n : Nat} {s t : State} (inv : Invariant n s) (i : Nat)
    (update : Bool) (done : s.touchInLoop i update (some .base) = some t) : Invariant n t := by
  obtain ⟨c, found, rest⟩ := Option.map_eq_some_iff.mp done
  obtain ⟨loop, owner⟩ := inv.loop_base found
  simp only [loop, owner, assertInLoopThread_base] at rest
  rw [← rest]
  split
  · exact inv.updateChannel i
  · exact inv

theorem Invariant.forceCLoseInLoop {n : Nat} {s t : State} (inv : Invariant n s) (i : Nat)
    (done : s.forceCLoseInLoop i (some .base) = some t) : Invariant n t := by
  obtain ⟨c, found, rest⟩ := Option.bind_eq_some_iff.mp done
  obtain ⟨loop, owner⟩ := inv.loop_base found
  simp only [loop, assertInLoopThread_base] at rest
  split at rest
  · exact inv.handleClose i rest
  · rw [Option.some.injEq] at rest
    exact rest ▸ inv

/-- connectEstablished is what runs on the thread of the loop that the pool gave. Where this
is not the base loop, all three assertions about the thread fail. -/
theorem Invariant.connectEstablished {n : Nat} {s t : State} (inv : Invariant n s) (i : Nat)
    (done : s.connectEstablished i (some (roundRobin n i)) = some t) : Invariant n t := by
  obtain ⟨c, found, rest⟩ := Option.bind_eq_some_iff.mp done
  obtain ⟨loop, owner⟩ := inv.loop_base found
  have known : i < s.connections.length := (List.getElem?_eq_some_iff.mp found).1
  simp only [loop, owner, State.updateChannel, assertInLoopThread_eq, setConn] at rest
  split at rest
  · rw [Option.some.injEq] at rest
    rw [← rest]
    refine ⟨inv.loops, ?_, ?_, inv.queued, ?_, ?_, ?_⟩
    · rw [List.length_set]
      exact inv.next
    · intro d member
      rcases List.mem_or_eq_of_mem_set member with old | rfl
      · exact inv.owned d old
      · exact ⟨rfl, rfl⟩
    · intro other j member
      by_cases base : other = .base
      · exact base
      · apply inv.registered other j
        simpa only [Function.update_of_ne base] using member
    · intro j d thread there on
      by_cases same : i = j
      · rw [← same, List.getElem?_set_self known, Option.some.injEq] at there
        rw [← there, Option.some.injEq] at on
        rw [← on, ← same]
        refine ⟨rfl, fun _ => ?_, fun elsewhere => ?_⟩
        · simp only [Function.update_self]
          exact Finset.mem_insert_self i _
        · simp only [if_neg elsewhere]
          exact List.mem_append_right _ (List.mem_singleton_self _)
      · rw [List.getElem?_set_ne same] at there
        obtain ⟨chosen, live, logged⟩ := inv.established j d thread there on
        refine ⟨chosen, fun kept => ?_, fun elsewhere => ?_⟩
        · simp only [Function.update_self]
          exact Finset.mem_insert_of_mem (live kept)
        · simp only [List.append_assoc]
          exact List.mem_append_left _ (logged elsewhere)
    · intro a member
      rw [List.length_set]
      by_cases base : roundRobin n i = .base
      · simp only [base, ↓reduceIte, List.append_nil] at member
        exact inv.aborted a member
      · have elsewhere : some (roundRobin n i) ≠ some Loop.base := fun same =>
          base (Option.some.inj same)
        simp only [if_neg elsewhere, List.mem_append, List.mem_singleton] at member
        rcases member with ((old | rfl) | rfl) | rfl
        · exact inv.aborted a old
        · exact ⟨elsewhere, i, known, rfl⟩
        · exact ⟨elsewhere, i, known, rfl⟩
        · exact ⟨elsewhere, i, known, rfl⟩
  · cases rest

theorem Invariant.perform {n : Nat} {s t : State} (inv : Invariant n s) (f : Functor)
    (done : s.perform (some (f.home n)) f = some t) : Invariant n t := by
  cases f with
  | connectEstablished i => exact inv.connectEstablished i done
  | sendInLoop i update => exact inv.touchInLoop i update done
  | shutdownInLoop i => exact inv.touchInLoop i false done
  | forceCLoseInLoop i => exact inv.forceCLoseInLoop i done
  | startReadInLoop i update => exact inv.touchInLoop i update done
  | stopReadInLoop i update => exact inv.touchInLoop i update done
  | removeConnectionInLoop i =>
      apply inv.removeConnection i
      rw [State.removeConnection, if_pos rfl]
      exact done
  | connectDestroyed i => exact inv.connectDestroyed i done

theorem Invariant.runInLoop {n : Nat} {s t : State} (inv : Invariant n s) (f : Functor)
    (thread : Thread) (done : s.runInLoop (f.home n) f thread = some t) : Invariant n t := by
  unfold State.runInLoop at done
  split at done
  · rename_i here
    rw [here] at done
    exact inv.perform f done
  · rw [Option.some.injEq] at done
    rw [← done]
    exact inv.queueInLoop f

/-- The pool gives the connections to its loops in turn. -/
theorem Invariant.getNextLoop {n : Nat} {s : State} (inv : Invariant n s) {ioLoop : Loop}
    {pool : EventLoopThreadPool} (given : s.pool.getNextLoop = some (ioLoop, pool)) :
    ioLoop = roundRobin n s.connections.length ∧ pool.loops = s.pool.loops ∧
      (0 < n → pool.next = (s.connections.length + 1) % n) := by
  have length : s.pool.loops.length = n := by rw [inv.loops, List.length_map, List.length_range]
  unfold EventLoopThreadPool.getNextLoop at given
  split at given
  · rename_i empty
    rw [empty] at length
    rw [Option.some.injEq, Prod.mk.injEq] at given
    have none : n = 0 := length.symm
    refine ⟨?_, by rw [given.2], fun positive => absurd positive (by omega)⟩
    rw [roundRobin, if_pos none]
    exact given.1.symm
  · rename_i workers
    obtain ⟨loop, found, both⟩ := Option.map_eq_some_iff.mp given
    rw [Prod.mk.injEq] at both
    have positive : 0 < n := by
      rw [← length]
      exact List.length_pos_iff.mpr workers
    rw [inv.next positive, inv.loops, List.getElem?_map,
      List.getElem?_range (Nat.mod_lt _ positive), Option.map_some, Option.some.injEq] at found
    refine ⟨?_, by rw [← both.2], fun _ => ?_⟩
    · rw [roundRobin, if_neg (by omega), found]
      exact both.1.symm
    · rw [← both.2, length, inv.next positive, Nat.mod_add_mod]

theorem Invariant.newConnection {n : Nat} {s t : State} (inv : Invariant n s)
    (done : s.newConnection (some .base) = some t) : Invariant n t := by
  simp only [State.newConnection, assertInLoopThread_base, Option.bind_eq_some_iff,
    Prod.exists] at done
  obtain ⟨ioLoop, pool, given, rest⟩ := done
  obtain ⟨chosen, loops, turn⟩ := inv.getNextLoop given
  rw [chosen] at rest
  refine Invariant.runInLoop ?_ (.connectEstablished s.connections.length) _ rest
  refine ⟨by rw [loops]; exact inv.loops, ?_, ?_, inv.queued, inv.registered, ?_, ?_⟩
  · rw [List.length_append, List.length_singleton]
    exact turn
  · intro c member
    rcases List.mem_append.mp member with old | new
    · exact inv.owned c old
    · rw [List.mem_singleton.mp new]
      exact ⟨rfl, rfl⟩
  · intro j c thread there on
    by_cases old : j < s.connections.length
    · rw [List.getElem?_append_left old] at there
      exact inv.established j c thread there on
    · rw [List.getElem?_append_right (by omega)] at there
      have last := List.mem_singleton.mp (List.mem_of_getElem? there)
      rw [last] at on
      cases on
  · intro a member
    obtain ⟨elsewhere, k, below, here⟩ := inv.aborted a member
    exact ⟨elsewhere, k, by rw [List.length_append]; omega, here⟩

theorem Invariant.handle {n : Nat} {s t : State} (inv : Invariant n s) (i : Nat) (event : Event)
    (done : s.handle i (some .base) event = some t) : Invariant n t := by
  cases event with
  | read eof =>
      obtain ⟨c, found, rest⟩ := Option.bind_eq_some_iff.mp done
      simp only [(inv.loop_base found).1, assertInLoopThread_base] at rest
      split at rest
      · exact inv.handleClose i rest
      · exact Option.some.inj rest ▸ inv
  | write drained =>
      obtain ⟨c, found, rest⟩ := Option.bind_eq_some_iff.mp done
      simp only [(inv.loop_base found).1, (inv.loop_base found).2, assertInLoopThread_base] at rest
      split at rest
      · split at rest
        · exact (inv.updateChannel i).touchInLoop i false rest
        · exact Option.some.inj rest ▸ inv.updateChannel i
      · exact Option.some.inj rest ▸ inv
  | close => exact inv.handleClose i done
  | error => exact Option.some.inj done ▸ inv

/-- What user code asks for is done on the base loop, whichever thread it runs on. -/
theorem Invariant.userCall {n : Nat} {s t : State} (inv : Invariant n s) (thread : Thread)
    (call : UserCall) (done : s.userCall thread call = some t) : Invariant n t := by
  cases call with
  | send i update =>
      obtain ⟨c, found, rest⟩ := Option.bind_eq_some_iff.mp done
      rw [(inv.loop_base found).1] at rest
      split at rest
      · exact inv.runInLoop (.sendInLoop i update) thread rest
      · exact Option.some.inj rest ▸ inv
  | shutdown i =>
      obtain ⟨c, found, rest⟩ := Option.bind_eq_some_iff.mp done
      have stored := inv.setState found .kDisconnecting c.destroyed id
      rw [(inv.loop_base found).1] at rest stored
      split at rest
      · exact stored.runInLoop (.shutdownInLoop i) thread rest
      · exact Option.some.inj rest ▸ inv
  | forceClose i =>
      obtain ⟨c, found, rest⟩ := Option.map_eq_some_iff.mp done
      have stored := inv.setState found .kDisconnecting c.destroyed id
      rw [(inv.loop_base found).1] at rest stored
      rw [← rest]
      split
      · exact stored.queueInLoop (.forceCLoseInLoop i)
      · exact inv
  | startRead i update =>
      obtain ⟨c, found, rest⟩ := Option.bind_eq_some_iff.mp done
      rw [(inv.loop_base found).1] at rest
      exact inv.runInLoop (.startReadInLoop i update) thread rest
  | stopRead i update =>
      obtain ⟨c, found, rest⟩ := Option.bind_eq_some_iff.mp done
      rw [(inv.loop_base found).1] at rest
      exact inv.runInLoop (.stopReadInLoop i update) thread rest

theorem next_preserves (n : Nat) : machine.Preserves (Invariant n) := by
  intro s label t inv enabled stepped
  cases label with
  | accept => exact inv.newConnection stepped
  | runFunctor loop =>
      have performed : s.next (.runFunctor loop) = some t := stepped
      cases pending : s.pendingFunctors loop with
      | nil => exact absurd pending enabled
      | cons f rest =>
          have here : loop = f.home n := by
            apply inv.queued loop f
            rw [pending]
            exact List.mem_cons_self
          have fewer := inv.dequeue loop f rest pending
          simp only [State.next, pending] at performed
          rw [here] at fewer performed
          exact fewer.perform f performed
  | event loop i event =>
      have base := inv.registered loop i enabled
      have handled : s.handle i (some loop) event = some t := stepped
      rw [base] at handled
      exact inv.handle i event handled
  | call thread call => exact inv.userCall thread call stepped

/-- How many connections belong to a worker. -/
def created (s : State) (i : Nat) : Nat := s.connections.countP fun c => c.loop = .worker i

/-- One loop per connection, with a pool of `n` threads: the loop is the one given in turn,
connectEstablished has run on its thread and no function of a connection on any other, the
channel is known to its Poller until connectDestroyed and to no other one, and the workers
have the same number of connections up to one. -/
structure OneLoop (n : Nat) (s : State) : Prop where
  chosen : ∀ (k : Nat) (c : Connection), s.connections[k]? = some c → c.loop = roundRobin n k
  thread : ∀ (k : Nat) (c : Connection) (on : Thread), s.connections[k]? = some c →
    c.establishedOn = some on → on = some c.loop
  registered : ∀ (k : Nat) (c : Connection), s.connections[k]? = some c →
    c.establishedOn ≠ none → c.destroyed = false → k ∈ s.channels c.loop
  elsewhere : ∀ (k : Nat) (c : Connection) (loop : Loop), s.connections[k]? = some c →
    k ∈ s.channels loop → loop = c.loop
  asserted : s.aborts = []
  balanced : ∀ i j, i < n → j < n → s.created i ≤ s.created j + 1

/-- Without workers everything is on the base loop. -/
theorem Invariant.oneLoop {s : State} (inv : Invariant 0 s) : OneLoop 0 s where
  chosen k c found := by
    rw [(inv.loop_base found).1]
    rfl
  thread k c thread found on := by
    rw [(inv.established k c thread found on).1, (inv.loop_base found).1]
    rfl
  registered k c found on kept := by
    obtain ⟨thread, established⟩ := Option.ne_none_iff_exists'.mp on
    rw [(inv.loop_base found).1]
    exact (inv.established k c thread found established).2.1 kept
  elsewhere k c loop found member := by
    rw [inv.registered loop k member, (inv.loop_base found).1]
  asserted := by
    apply List.eq_nil_iff_forall_not_mem.mpr
    intro a member
    obtain ⟨elsewhere, k, _, here⟩ := inv.aborted a member
    exact elsewhere here
  balanced i j below := absurd below (Nat.not_lt_zero i)

/-- Before the first connection. -/
theorem Invariant.oneLoop_nil {n : Nat} {s : State} (inv : Invariant n s)
    (nothing : s.connections = []) : OneLoop n s := by
  have missing : ∀ (k : Nat) (c : Connection), s.connections[k]? ≠ some c := by
    intro k c
    simp [nothing]
  constructor
  · exact fun k c found => absurd found (missing k c)
  · exact fun k c _ found => absurd found (missing k c)
  · exact fun k c found => absurd found (missing k c)
  · exact fun k c _ found => absurd found (missing k c)
  · apply List.eq_nil_iff_forall_not_mem.mpr
    intro a member
    obtain ⟨_, k, below, _⟩ := inv.aborted a member
    rw [nothing] at below
    exact Nat.not_lt_zero k below
  · intro i j _ _
    rw [created, created, nothing]
    exact Nat.zero_le _

end State

/-- With workers, connectEstablished runs on the thread of the loop that was given in turn,
while getLoop() is the base loop, and the assertion about the thread has failed. -/
theorem established_on_worker (n : Nat) (labels : List Label) (s : State)
    (run : machine.Run (State.create n) labels s) (workers : n ≠ 0) (k : Nat) (c : Connection)
    (found : s.connections[k]? = some c) (on : Thread) (established : c.establishedOn = some on) :
    on = some (.worker (k % n)) ∧ c.loop = .base ∧ (.base, on) ∈ s.aborts := by
  have inv := run.invariant (State.next_preserves n) (State.create_invariant n)
  obtain ⟨given, _, logged⟩ := inv.established k c on found established
  rw [roundRobin, if_neg workers] at given
  refine ⟨given, (inv.loop_base found).1, logged ?_⟩
  rw [given]
  simp

/-- newConnection keeps one loop per connection if and only if there are no worker threads,
or nothing has been accepted yet. -/
theorem oneLoop_iff (n : Nat) (labels : List Label) (s : State)
    (run : machine.Run (State.create n) labels s) :
    s.OneLoop n ↔ n = 0 ∨ s.connections = [] := by
  have inv := run.invariant (State.next_preserves n) (State.create_invariant n)
  constructor
  · intro one
    by_cases workers : n = 0
    · exact Or.inl workers
    · right
      cases first : s.connections with
      | nil => rfl
      | cons c rest =>
          have found : s.connections[0]? = some c := by rw [first]; rfl
          have loop := one.chosen 0 c found
          rw [(inv.loop_base found).1, roundRobin, if_neg workers] at loop
          cases loop
  · rintro (rfl | nothing)
    · exact inv.oneLoop
    · exact inv.oneLoop_nil nothing

/-- A server without workers: the connection is established, closed and destroyed. -/
theorem oneLoop_single : ∃ s, machine.Run (State.create 0)
      [.accept, .event .base 0 (.read false), .call (some .base) (.send 0 true),
        .event .base 0 .close, .runFunctor .base] s ∧
    s.connections.map Connection.destroyed = [true] ∧ s.OneLoop 0 := by
  obtain ⟨s, run, seen⟩ := Machine.exists_run_of_play machine (State.create 0)
    [.accept, .event .base 0 (.read false), .call (some .base) (.send 0 true),
      .event .base 0 .close, .runFunctor .base]
    (fun s => s.connections.map Connection.destroyed) [true] (by decide +kernel)
  exact ⟨s, run, seen, (oneLoop_iff 0 _ s run).mpr (Or.inl rfl)⟩

/-- With two workers the first connection belongs to the base loop and is established on
the thread of a worker. -/
theorem oneLoop_fails : ¬ ∀ (n : Nat) (labels : List Label) (s : State),
    machine.Run (State.create n) labels s → s.OneLoop n := by
  intro always
  obtain ⟨s, run, seen⟩ := Machine.exists_run_of_play machine (State.create 2)
    [.accept, .runFunctor (.worker 0)]
    (fun s => (s.connections.map fun c => (c.loop, c.establishedOn), s.aborts))
    ([(.base, some (some (.worker 0)))], List.replicate 3 (.base, some (.worker 0)))
    (by decide +kernel)
  rw [Prod.mk.injEq] at seen
  have asserted := (always 2 _ s run).asserted
  rw [seen.2] at asserted
  cases asserted

end Tundra.LoopOwnership
