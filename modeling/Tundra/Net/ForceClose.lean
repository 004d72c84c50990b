import Tundra.Net.Poller
import Tundra.Net.StateOrder

set_option autoImplicit false

/- forceClose and forceCLoseWithDelay called by foreign threads, which test state_ and store
kDisconnecting in two steps, while the loop thread goes on with the connection. The Poller of
the loop keeps the connection's channel and asserts what it finds in its tables. -/
namespace Tundra.ForceClose

open Library TcpConnection

/-- A foreign thread outside the two functions, or between the test of state_ and the store. -/
inductive Caller
  | free
  | tested (delayed : Bool)
deriving DecidableEq

/-- `loop` is the connection with its loop, `poller` the Poller of that loop as far as the
connection's channel goes. `listed` tells whether connections_ holds the connection, `closes`
how often handleClose has run, and `asserted` whether the assertion n == 1 of
removeConnectionInLoop has held so far. -/
structure State (τ : Type*) where
  loop : HalfClose.State
  poller : Poller Unit
  callers : τ → Caller
  listed : Bool
  closes : Nat
  asserted : Bool

inductive Label (τ : Type*)
  | loop (label : HalfClose.Label)
  | test (thread : τ) (delayed : Bool)
  | store (thread : τ) (delayed : Bool)
  | shutdown
  | send (mem : Memory) (behind : Nat → UInt8) (arg : SendArg)

variable {τ : Type*}

/-- Channel::update and Channel::remove have changed the channel when they call the Poller,
which reads it and its index. -/
def call (channel : Channel) (p : Poller Unit) : Effect → Option (Poller Unit)
  | .updateChannel _ => p.update () channel
  | .removeChannel => (p.setChannel () { p.channel () with toChannel := channel }).removeChannel ()
  | .queueInLoop _ | .runAfterForceClose => some p

/-- The calls of an operation, which changes the channel at most once. -/
def calls (p : Poller Unit) (r : Outcome) : Option (Poller Unit) :=
  r.2.foldlM (call r.1.channel) p

def callsDestroyed (p : Poller Unit) (c : TcpConnection) : Option (Poller Unit) :=
  if c.state = .kConnected then
    (calls p c.takeDown).bind fun q => c.takeDown.1.removeChannel.bind (calls q)
  else c.removeChannel.bind (calls p)

def callsRun (p : Poller Unit) (c : TcpConnection) (mem : Memory) (behind : Nat → UInt8)
    (answer : WriteResult) : Functor → Option (Poller Unit)
  | .writeCompleteCallback | .highWaterMarkCallback _ | .shutdownInLoop => some p
  | .sendInLoop bound => (c.runSend mem behind answer bound).bind (calls p)
  | .forceCLoseInLoop => c.forceCLoseInLoop.bind (calls p)
  | .connectDestroyed => callsDestroyed p c

/-- The Poller after the step of the loop; `none` when one of its assertions fails. -/
def polled (p : Poller Unit) (s : HalfClose.State) : HalfClose.Label → Option (Poller Unit)
  | .connectEstablished => s.conn.connectEstablished.bind (calls p)
  | .send mem behind arg answer =>
      (s.conn.sendArg mem behind true answer arg).bind fun r => calls p r.1
  | .startRead => calls p s.conn.startReadInLoop
  | .stopRead => calls p s.conn.stopReadInLoop
  | .handleRead input => (s.conn.handleRead input).bind (calls p)
  | .handleWrite answer => (s.conn.handleWrite answer).bind (calls p)
  | .handleClose => s.conn.handleClose.bind (calls p)
  | .runFunctor mem behind answer =>
      match s.functors with
      | [] => some p
      | f :: _ => callsRun p s.conn mem behind answer f
  | .connectDestroyed => callsDestroyed p s.conn
  -- these leave the channel alone
  | .shutdown | .forceClose | .forceCLoseWithDelay | .retrieve _ | .fireTimer _ => some p

/-- The step of the loop runs handleClose. -/
def runsHandleClose (s : HalfClose.State) : HalfClose.Label → Bool
  | .handleClose => true
  | .handleRead input => s.conn.inputBuffer.readFdCount input = some 0
  | .runFunctor _ _ _ =>
      s.functors.head? = some .forceCLoseInLoop &&
        (s.conn.state = .kConnected || s.conn.state = .kDisconnecting)
  | _ => false

/-- handleClose ends in removeConnectionInLoop, which erases the connection from connections_
and asserts that it was there. -/
def State.removeConnection (s : State τ) : State τ :=
  { s with closes := s.closes + 1, asserted := s.asserted && s.listed, listed := false }

/-- The store, and what the function does behind it. -/
def State.disconnect (s : State τ) (delayed : Bool) : State τ :=
  { s with
    loop := s.loop.took ({ s.loop.conn with state := .kDisconnecting },
      [if delayed then .runAfterForceClose else .queueInLoop .forceCLoseInLoop]) }

variable [DecidableEq τ]

def State.setCaller (s : State τ) (thread : τ) (caller : Caller) : State τ :=
  { s with callers := Function.update s.callers thread caller }

/-- A foreign shutdown is one compare-and-swap and a push, a foreign send a test and a push.
handleClose calls the Poller before closeCallback_, which leads to removeConnectionInLoop. -/
def next (s : State τ) : Label τ → Option (State τ)
  | .loop label => (polled s.poller s.loop label).bind fun poller =>
      (HalfClose.next s.loop label).map fun loop =>
        if runsHandleClose s.loop label then
          { s with loop := loop, poller := poller }.removeConnection
        else { s with loop := loop, poller := poller }
  | .test thread delayed =>
      some (if s.loop.conn.state = .kConnected ∨ s.loop.conn.state = .kDisconnecting then
        s.setCaller thread (.tested delayed) else s)
  | .store thread delayed => some ((s.disconnect delayed).setCaller thread .free)
  | .shutdown => some { s with loop := s.loop.took (s.loop.conn.shutdown false) }
  | .send mem behind arg =>
      (s.loop.conn.sendArg mem behind false (.accepted 0) arg).map fun r =>
        { s with loop := s.loop.took r.1 }

def Enabled (s : State τ) : Label τ → Prop
  | .loop label => HalfClose.Enabled s.loop label
  | .test thread _ => s.callers thread = .free
  | .store thread delayed => s.callers thread = .tested delayed
  | .shutdown => True
  | .send _ _ arg => arg.length < 2 ^ 31

def machine (τ : Type*) [DecidableEq τ] : Machine (State τ) (Label τ) where
  enabled := Enabled
  step := next

/-- A connection that its server has just made. -/
def created (τ : Type*) (name : Bytes) (sockfd : Int) (writeComplete highWater : Bool)
    (mark : Nat) : State τ where
  loop := HalfClose.created name sockfd writeComplete highWater mark
  poller := Poller.create fun _ => PollChannel.create sockfd
  callers _ := .free
  listed := true
  closes := 0
  asserted := true

/-- kDisconnected is final: the step does not take the connection out of it. -/
def Final (s : State τ) (_ : Label τ) (t : State τ) : Prop :=
  s.loop.conn.state = .kDisconnected → t.loop.conn.state = .kDisconnected

/-- The store does not find the connection in kDisconnected. -/
def InTime (s : State τ) : Label τ → Prop
  | .store _ _ => s.loop.conn.state ≠ .kDisconnected
  | _ => True

section Loop

variable {s t : HalfClose.State}

/-- The loop thread alone never brings a connection back. -/
theorem loop_down {label : HalfClose.Label} (down : s.conn.state = .kDisconnected)
    (moved : HalfClose.next s label = some t) : t.conn.state = .kDisconnected := by
  apply StateE.eq_down_of_rank
  rw [← down]
  exact HalfClose.next_forward moved

theorem handleClose_closes {c : TcpConnection} {r : Outcome} (done : c.handleClose = some r) :
    c.Up ∧ r.1.state = .kDisconnected := by
  unfold TcpConnection.handleClose at done
  split at done
  · rename_i up
    cases done
    exact ⟨up, rfl⟩
  · cases done

/-- handleClose finds a connection that is up and leaves it down. -/
theorem runsHandleClose_closes {label : HalfClose.Label}
    (closes : runsHandleClose s label = true) (moved : HalfClose.next s label = some t) :
    s.conn.Up ∧ t.conn.state = .kDisconnected := by
  cases label with
  | handleClose =>
      obtain ⟨r, done, rfl⟩ := Option.map_eq_some_iff.mp moved
      rw [HalfClose.closing_conn]
      exact handleClose_closes done
  | handleRead input =>
      obtain ⟨r, done, rfl⟩ := Option.map_eq_some_iff.mp moved
      obtain ⟨read, _, rest⟩ := Option.bind_eq_some_iff.mp done
      have ended : s.conn.inputBuffer.readFdCount input = some 0 := of_decide_eq_true closes
      rw [ended] at rest
      rw [HalfClose.closing_conn]
      exact handleClose_closes (c := { s.conn with inputBuffer := read }) rest
  | runFunctor mem behind answer =>
      unfold runsHandleClose at closes
      simp only [Bool.and_eq_true, Bool.or_eq_true, decide_eq_true_eq] at closes
      obtain ⟨head, up⟩ := closes
      dsimp only [HalfClose.next] at moved
      split at moved
      · rename_i empty
        rw [empty] at head
        cases head
      · rename_i f rest queue
        rw [queue, List.head?_cons, Option.some.injEq] at head
        subst head
        obtain ⟨r, closed, rfl⟩ := Option.map_eq_some_iff.mp moved
        rw [forceCLoseInLoop, if_pos up] at closed
        rw [HalfClose.closing_conn]
        exact handleClose_closes closed
  | connectEstablished | send | shutdown | forceClose | forceCLoseWithDelay | startRead | stopRead
  | retrieve | handleWrite | fireTimer | connectDestroyed => cases closes

end Loop

section Runs

variable {s t : State τ}

/-- handleClose has not run on a connection that is not down yet, and then it is listed. -/
structure Once (s : State τ) : Prop where
  closes : s.closes ≤ 1
  asserted : s.asserted = true
  open_ : s.loop.conn.state ≠ .kDisconnected → s.closes = 0 ∧ s.listed = true

omit [DecidableEq τ] in
/-- A step that runs no handleClose and does not bring the connection back. -/
theorem Once.of_same (once : Once s) (closes : t.closes = s.closes)
    (asserted : t.asserted = s.asserted) (listed : t.listed = s.listed)
    (final : s.loop.conn.state = .kDisconnected → t.loop.conn.state = .kDisconnected) : Once t := by
  refine ⟨by rw [closes]; exact once.closes, asserted.trans once.asserted, fun alive => ?_⟩
  rw [closes, listed]
  exact once.open_ fun down => alive (final down)

theorem loop_once (once : Once s) {label : HalfClose.Label}
    (moved : next s (.loop label) = some t) : Once t := by
  obtain ⟨poller, _, rest⟩ := Option.bind_eq_some_iff.mp moved
  obtain ⟨loop, stepped, rfl⟩ := Option.map_eq_some_iff.mp rest
  split
  · rename_i closes
    obtain ⟨up, down⟩ := runsHandleClose_closes closes stepped
    have alive : s.loop.conn.state ≠ .kDisconnected := by
      rcases up with up | up <;> rw [up] <;> decide
    obtain ⟨none, listed⟩ := once.open_ alive
    refine ⟨?_, ?_, fun alive => absurd down alive⟩
    · show s.closes + 1 ≤ 1
      rw [none]
    · show (s.asserted && s.listed) = true
      rw [once.asserted, listed]
      rfl
  · exact once.of_same rfl rfl rfl fun down => loop_down down stepped

theorem shutdown_final (c : TcpConnection) (down : c.state = .kDisconnected) :
    (c.shutdown false).1.state = .kDisconnected := by
  rw [TcpConnection.shutdown, if_neg (by rw [down]; decide)]
  exact down

/-- Every step but a late store leaves a connection that is down as it is. -/
theorem next_final {label : Label τ} (moved : next s label = some t) :
    Final s label t ↔ InTime s label := by
  cases label with
  | loop label =>
      refine iff_of_true (fun down => ?_) trivial
      obtain ⟨poller, _, rest⟩ := Option.bind_eq_some_iff.mp moved
      obtain ⟨loop, stepped, rfl⟩ := Option.map_eq_some_iff.mp rest
      split
      · exact loop_down down stepped
      · exact loop_down down stepped
  | test thread delayed =>
      refine iff_of_true (fun down => ?_) trivial
      cases moved
      split <;> exact down
  | store thread delayed =>
      cases moved
      have now : ((s.disconnect delayed).setCaller thread .free).loop.conn.state =
          .kDisconnecting := by
        show (s.loop.took _).conn.state = _
        rw [HalfClose.took_conn]
      constructor
      · intro final down
        cases now.symm.trans (final down)
      · exact fun inTime down => absurd down inTime
  | shutdown =>
      refine iff_of_true (fun down => ?_) trivial
      cases moved
      show (s.loop.took _).conn.state = _
      rw [HalfClose.took_conn]
      exact shutdown_final _ down
  | send mem behind arg =>
      refine iff_of_true (fun down => ?_) trivial
      rw [next, sendArg_closed _ _ _ _ _ _ (by rw [down]; decide), Option.map_some] at moved
      cases moved
      show (s.loop.took _).conn.state = _
      rw [HalfClose.took_conn]
      exact down

theorem next_once (once : Once s) {label : Label τ} (inTime : InTime s label)
    (moved : next s label = some t) : Once t := by
  have final := (next_final moved).mpr inTime
  cases label with
  | loop label => exact loop_once once moved
  | test thread delayed =>
      cases moved
      split <;> exact once.of_same rfl rfl rfl id
  | store thread delayed =>
      cases moved
      exact once.of_same rfl rfl rfl final
  | shutdown =>
      cases moved
      exact once.of_same rfl rfl rfl final
  | send mem behind arg =>
      obtain ⟨r, _, rfl⟩ := Option.map_eq_some_iff.mp moved
      exact once.of_same rfl rfl rfl final

omit [DecidableEq τ] in
theorem created_once (name : Bytes) (sockfd : Int) (writeComplete highWater : Bool) (mark : Nat) :
    Once (created τ name sockfd writeComplete highWater mark) :=
  ⟨Nat.zero_le 1, rfl, fun _ => ⟨rfl, rfl⟩⟩

/-- kDisconnected is final and handleClose runs at most once, with the connection still in
connections_, exactly in the runs in which no store finds the connection in kDisconnected. -/
theorem disconnected_final_iff (name : Bytes) (sockfd : Int) (writeComplete highWater : Bool)
    (mark : Nat) (labels : List (Label τ))
    (run : (machine τ).Run (created τ name sockfd writeComplete highWater mark) labels s) :
    ((machine τ).Along Final (created τ name sockfd writeComplete highWater mark) labels ∧
        s.closes ≤ 1 ∧ s.asserted = true) ↔
      (machine τ).Along (fun s label _ => InTime s label)
        (created τ name sockfd writeComplete highWater mark) labels := by
  have steps : (machine τ).Along Final (created τ name sockfd writeComplete highWater mark)
        labels ↔
      (machine τ).Along (fun s label _ => InTime s label)
        (created τ name sockfd writeComplete highWater mark) labels := by
    have always : (machine τ).Preserves fun _ => True := fun _ _ _ _ _ _ => trivial
    exact run.along_iff always (fun _ _ _ _ _ moved => next_final moved) trivial
  constructor
  · exact fun held => steps.mp held.1
  · intro inTime
    have kept : ((machine τ).restrict InTime).Preserves Once :=
      fun _ _ _ once allowed moved => next_once once allowed.2 moved
    have once := (run.restrict inTime).invariant kept
      (created_once name sockfd writeComplete highWater mark)
    exact ⟨steps.mpr inTime, once.closes, once.asserted⟩

/-- channel_->disableAll() on a channel that the Poller has given up. -/
theorem handleClose_aborts {p : Poller Unit} {c : TcpConnection}
    (known : 0 ≤ (p.channel ()).index) (absent : p.channels.find c.channel.fd = none) :
    c.handleClose.bind (calls p) = none := by
  unfold TcpConnection.handleClose
  split
  · have found : p.channels.find c.channel.disableAll.fd ≠ some () := by
      show p.channels.find c.channel.fd ≠ some ()
      rw [absent]
      exact fun found => by cases found
    have failed : p.update () c.channel.disableAll = none := by
      simp only [Poller.update, Poller.updateChannel, Poller.setChannel, Function.update_self,
        not_lt.mpr known, found, ↓reduceIte]
    show (p.update () c.channel.disableAll).bind _ = none
    rw [failed]
    rfl
  · rfl

end Runs

instance (s : State τ) : (label : Label τ) → Decidable ((machine τ).enabled s label)
  | .loop label => inferInstanceAs (Decidable (HalfClose.machine.enabled s.loop label))
  | .test thread _ => inferInstanceAs (Decidable (s.callers thread = .free))
  | .store thread delayed => inferInstanceAs (Decidable (s.callers thread = .tested delayed))
  | .shutdown => isTrue trivial
  | .send _ _ arg => inferInstanceAs (Decidable (arg.length < 2 ^ 31))

omit [DecidableEq τ] in
instance (s : State τ) : (label : Label τ) → Decidable (InTime s label)
  | .store _ _ => inferInstanceAs (Decidable (s.loop.conn.state ≠ .kDisconnected))
  | .loop _ | .test _ _ | .shutdown | .send _ _ _ => isTrue trivial

/-- The next functor of the loop's queue. -/
def runFunctor : Label Nat := .loop (.runFunctor letters (fun _ => 0) (.accepted 0))

/-- Behind connectDestroyed handleClose does not get as far as closeCallback_. -/
theorem closes_aborts {s : State τ} {label : HalfClose.Label}
    (known : 0 ≤ (s.poller.channel ()).index)
    (absent : s.poller.channels.find s.loop.conn.channel.fd = none)
    (closes : runsHandleClose s.loop label = true) : next s (.loop label) = none := by
  have stopped : polled s.poller s.loop label = none := by
    cases label with
    | handleClose => exact handleClose_aborts known absent
    | handleRead input =>
        have ended : s.loop.conn.inputBuffer.readFdCount input = some 0 :=
          of_decide_eq_true closes
        show (s.loop.conn.handleRead input).bind (calls s.poller) = none
        rw [TcpConnection.handleRead, ended]
        cases s.loop.conn.inputBuffer.readFd input with
        | none => rfl
        | some read =>
            exact handleClose_aborts (c := { s.loop.conn with inputBuffer := read }) known absent
    | runFunctor mem behind answer =>
        unfold runsHandleClose at closes
        simp only [Bool.and_eq_true, Bool.or_eq_true, decide_eq_true_eq] at closes
        obtain ⟨head, up⟩ := closes
        obtain ⟨rest, queue⟩ := List.head?_eq_some_iff.mp head
        simp only [polled, queue, callsRun, forceCLoseInLoop, if_pos up]
        exact handleClose_aborts known absent
    | connectEstablished | send | shutdown | forceClose | forceCLoseWithDelay | startRead
    | stopRead | retrieve | handleWrite | fireTimer | connectDestroyed => cases closes
  show (polled s.poller s.loop label).bind _ = none
  rw [stopped]
  rfl

/-- With a single forceClose connectDestroyed comes before forceCLoseInLoop, which then stops in
the Poller. -/
example : (machine Nat).play (created Nat [] 5 false false 1)
    [.loop .connectEstablished, .test 0 false, .loop (.handleRead (some [])), .store 0 false,
      runFunctor, runFunctor] = none := by
  exact Option.map_eq_none_iff.mp
    (by decide +kernel : Option.map (fun s : State Nat => s.closes) _ = none)

/-- A foreign forceClose that the loop carries out. -/
def forced : List (Label Nat) :=
  [.loop .connectEstablished, .test 0 false, .store 0 false, runFunctor, .test 0 false, runFunctor]

theorem disconnected_final_forced :
    ∃ s, (machine Nat).Run (created Nat [] 5 false false 1) forced s ∧ s.closes = 1 ∧
      (machine Nat).Along Final (created Nat [] 5 false false 1) forced ∧
      s.asserted = true := by
  obtain ⟨s, run, seen⟩ := (machine Nat).exists_run_of_play (created Nat [] 5 false false 1)
    forced (fun s => s.closes) 1 (by decide +kernel)
  have final := (disconnected_final_iff [] 5 false false 1 forced run).mpr (by decide +kernel)
  exact ⟨s, run, seen, final.1, final.2.2⟩

/-- A second forceClose of the same thread, between whose test and store the peer closes the
connection: the functor of the first one finds kDisconnecting and closes the connection again,
ahead of connectDestroyed. -/
def raced : List (Label Nat) :=
  [.loop .connectEstablished, .test 0 false, .store 0 false, .test 0 false,
    .loop (.handleRead (some [])), .store 0 false, runFunctor]

theorem disconnected_not_final :
    ¬ ∀ (labels : List (Label Nat)) (s : State Nat),
      (machine Nat).Run (created Nat [] 5 false false 1) labels s →
      (machine Nat).Along Final (created Nat [] 5 false false 1) labels ∧ s.closes ≤ 1 ∧
        s.asserted = true := by
  intro always
  obtain ⟨s, run, seen⟩ := (machine Nat).exists_run_of_play (created Nat [] 5 false false 1)
    raced (fun s => (s.closes, s.asserted)) (2, false) (by decide +kernel)
  have twice : s.closes = 2 := (Prod.ext_iff.mp seen).1
  have once := (always raced s run).2.1
  omega

end Tundra.ForceClose
