import Mathlib.Data.List.Basic
import Tundra.Library.Machine
import Tundra.Net.TcpSend

set_option autoImplicit false

/- A foreign thread calls send and then shutdown while the loop thread goes on
handling writes and running batches of functors. -/
namespace Tundra.SendShutdown

open Library TcpConnection

/-- A functor in the loop's queue; `message` is the sendInLoop of the caller's m. -/
inductive Job
  | message (bound : Bound)
  | send (bound : Bound)
  | shutdownInLoop
  | callback
deriving DecidableEq

def Job.isMessage : Job → Bool
  | .message _ => true
  | .send _ | .shutdownInLoop | .callback => false

/-- How far the caller is: before send, between send and shutdown, between the
compare-and-swap of shutdown and the push of its functor, and behind it. -/
inductive Caller
  | ready
  | sent
  | swapped (effects : List Effect)
  | done
deriving DecidableEq

/-- `functors` is what is left of the batch that doPendingFunctors runs, and `ran`
tells whether m's sendInLoop has been carried out. -/
structure State where
  conn : TcpConnection
  pendingFunctors : List Job
  functors : List Job
  caller : Caller
  ran : Bool

def State.queue (s : State) : List Job := s.functors ++ s.pendingFunctors

/-- The argument of send(m), with the memory at the call. -/
structure Message where
  arg : SendArg
  mem : Memory
  behind : Nat → UInt8

/-- `loopSend` is a send by user code on the loop thread and `foreignSend` one by
a further thread. -/
inductive Label
  | callerStep
  | handleWrite (answer : WriteResult)
  | swap
  | runFunctor (mem : Memory) (behind : Nat → UInt8) (answer : WriteResult)
  | loopSend (mem : Memory) (behind : Nat → UInt8) (arg : SendArg) (answer : WriteResult)
  | foreignSend (mem : Memory) (behind : Nat → UInt8) (arg : SendArg)

/-- Nobody calls forceClose, so the loop's queue holds no other functors. -/
def job : Effect → Option Job
  | .queueInLoop .writeCompleteCallback | .queueInLoop (.highWaterMarkCallback _) =>
      some .callback
  | .queueInLoop (.sendInLoop bound) => some (.send bound)
  | .queueInLoop .shutdownInLoop => some .shutdownInLoop
  | .queueInLoop .forceCLoseInLoop | .queueInLoop .connectDestroyed => none
  | .runAfterForceClose | .updateChannel _ | .removeChannel => none

/-- The same, for the effects of the caller's own send. -/
def messageJob (e : Effect) : Option Job :=
  (job e).map fun
    | .send bound => .message bound
    | other => other

/-- The loop thread's changes to the connection, with the functors it queues. -/
def State.took (s : State) (r : Outcome) : State :=
  { s with conn := r.1, pendingFunctors := s.pendingFunctors ++ r.2.filterMap job }

def callerStep (m : Message) (s : State) : Option State :=
  match s.caller with
  | .ready =>
      (s.conn.sendArg m.mem m.behind false (.accepted 0) m.arg).map fun r =>
        { s with
          conn := r.1.1
          pendingFunctors := s.pendingFunctors ++ r.1.2.filterMap messageJob
          caller := .sent }
  | .sent =>
      let r := s.conn.shutdown false
      some { s with conn := r.1, caller := .swapped r.2 }
  | .swapped effects =>
      some { s with
        pendingFunctors := s.pendingFunctors ++ effects.filterMap job
        caller := .done }
  | .done => some s

def runJob (s : State) (mem : Memory) (behind : Nat → UInt8) (answer : WriteResult) :
    Job → Option State
  | .message bound =>
      (s.conn.runSend mem behind answer bound).map fun r => { s.took r with ran := true }
  | .send bound => (s.conn.runSend mem behind answer bound).map s.took
  | .shutdownInLoop => some { s with conn := s.conn.shutdownInLoop }
  | .callback => some s

def next (m : Message) (s : State) : Label → Option State
  | .callerStep => callerStep m s
  | .handleWrite answer => (s.conn.handleWrite answer).map s.took
  | .swap => some { s with functors := s.pendingFunctors, pendingFunctors := [] }
  | .runFunctor mem behind answer =>
      match s.functors with
      | [] => some s
      | first :: rest => runJob { s with functors := rest } mem behind answer first
  | .loopSend mem behind arg answer =>
      (s.conn.sendArg mem behind true answer arg).map fun r => s.took r.1
  | .foreignSend mem behind arg =>
      (s.conn.sendArg mem behind false (.accepted 0) arg).map fun r => s.took r.1

/-- handleWrite runs in the event phase and the swap follows it, both with no batch
under way, and no write finds the peer gone. -/
def Allowed (s : State) : Label → Prop
  | .callerStep => s.caller ≠ .done
  | .handleWrite answer => s.functors = [] ∧ answer.alive
  | .swap => s.functors = []
  | .runFunctor _ _ answer => s.functors ≠ [] ∧ answer.alive
  | .loopSend _ _ _ answer => answer.alive
  | .foreignSend _ _ _ => True

instance (s : State) : (label : Label) → Decidable (Allowed s label)
  | .callerStep => inferInstanceAs (Decidable (s.caller ≠ .done))
  | .handleWrite answer => inferInstanceAs (Decidable (s.functors = [] ∧ answer.alive))
  | .swap => inferInstanceAs (Decidable (s.functors = []))
  | .runFunctor _ _ answer => inferInstanceAs (Decidable (s.functors ≠ [] ∧ answer.alive))
  | .loopSend _ _ _ answer => inferInstanceAs (Decidable answer.alive)
  | .foreignSend _ _ _ => inferInstanceAs (Decidable True)

def machine (m : Message) : Machine State Label where
  enabled := Allowed
  step := next m

/-- A connected connection before the calls. Output may be waiting for the socket
and callbacks and sends may be queued; a shutdown would have changed the state. -/
structure Connected (s : State) : Prop where
  connected : s.conn.state = .kConnected
  sync : s.conn.InSync
  unclosed : .shutdownInLoop ∉ s.queue
  ready : s.caller = .ready
  notRun : s.ran = false

/-- The step executes socket_->shutdownWrite(). -/
def HalfCloses (s t : State) : Prop := s.conn.halfCloses < t.conn.halfCloses

/-- A half-close comes after m's sendInLoop and leaves nothing in the buffer. -/
def InOrder (s : State) (_ : Label) (t : State) : Prop :=
  HalfCloses s t → s.ran = true ∧ t.conn.pending = []

/-- handleWrite drains the buffer behind the compare-and-swap of shutdown and before
the loop has run m's sendInLoop. -/
def EarlyDrain (s : State) : Label → Prop
  | .handleWrite answer =>
      s.conn.Drains answer ∧ s.conn.state = .kDisconnecting ∧ s.ran = false
  | _ => False

/-- No shutdownInLoop ahead of the first message. -/
def Ordered : List Job → Prop
  | [] => True
  | first :: rest => first.isMessage = true ∨ (first ≠ .shutdownInLoop ∧ Ordered rest)

/-- The message's functor is still in the queue. -/
def HasMessage (queue : List Job) : Prop := ∃ j ∈ queue, j.isMessage = true

theorem ordered_append (queue more : List Job) (ordered : Ordered queue)
    (safe : HasMessage queue ∨ .shutdownInLoop ∉ more) : Ordered (queue ++ more) := by
  induction queue with
  | nil =>
      have absent : .shutdownInLoop ∉ more := by
        rcases safe with ⟨j, member, _⟩ | absent
        · cases member
        · exact absent
      clear safe
      induction more with
      | nil => trivial
      | cons first rest ih =>
          rw [List.mem_cons, not_or] at absent
          exact Or.inr ⟨fun same => absent.1 same.symm, ih absent.2⟩
  | cons first rest ih =>
      rcases ordered with message | ⟨other, later⟩
      · exact Or.inl message
      · by_cases message : first.isMessage = true
        · exact Or.inl message
        · refine Or.inr ⟨other, ih later ?_⟩
          rcases safe with ⟨j, member, isMessage⟩ | absent
          · rcases List.mem_cons.mp member with rfl | behind
            · exact absurd isMessage message
            · exact Or.inl ⟨j, behind, isMessage⟩
          · exact Or.inr absent

theorem hasMessage_append (queue more : List Job) (has : HasMessage queue) :
    HasMessage (queue ++ more) := by
  obtain ⟨j, member, message⟩ := has
  exact ⟨j, List.mem_append_left more member, message⟩

/-- The state that the caller's progress leaves the connection in. -/
def Caller.state : Caller → StateE
  | .ready | .sent => .kConnected
  | .swapped _ | .done => .kDisconnecting

structure Invariant (s : State) : Prop where
  sync : s.conn.InSync
  state : s.conn.state = s.caller.state
  closing : ∀ effects, s.caller = .swapped effects → effects = [.queueInLoop .shutdownInLoop]
  ordered : s.ran = false → Ordered s.queue
  queued : s.caller ≠ .ready → s.ran = false → HasMessage s.queue

theorem connected_invariant (s : State) (connected : Connected s) : Invariant s := by
  refine ⟨connected.sync, ?_, ?_, fun _ => ?_, ?_⟩
  · rw [connected.connected, connected.ready]
    rfl
  · intro effects swapped
    rw [connected.ready] at swapped
    cases swapped
  · have ordered := ordered_append [] s.queue trivial (Or.inr connected.unclosed)
    exact ordered
  · intro started
    exact absurd connected.ready started

theorem passive_jobs (effects : List Effect) (quiet : ∀ e ∈ effects, passive e) :
    .shutdownInLoop ∉ effects.filterMap job := by
  intro member
  obtain ⟨e, queued, same⟩ := List.mem_filterMap.mp member
  have calm := quiet e queued
  cases e with
  | queueInLoop f => cases f <;> simp [job, passive] at same calm
  | runAfterForceClose => cases same
  | updateChannel events => cases same
  | removeChannel => cases same

/-- The steps of the loop thread that only move output, and sends of further threads. -/
theorem took_invariant (s : State) (r : Outcome) (inv : Invariant s)
    (state : r.1.state = s.conn.state) (sync : r.1.InSync)
    (quiet : .shutdownInLoop ∉ r.2.filterMap job) : Invariant (s.took r) := by
  have longer : (s.took r).queue = s.queue ++ r.2.filterMap job := by
    simp only [State.took, State.queue, List.append_assoc]
  refine ⟨sync, state.trans inv.state, inv.closing, ?_, ?_⟩
  · intro waiting
    rw [longer]
    exact ordered_append _ _ (inv.ordered waiting) (Or.inr quiet)
  · intro started waiting
    rw [longer]
    exact hasMessage_append _ _ (inv.queued started waiting)

theorem calm_invariant (s : State) (r : Outcome) (inv : Invariant s) (calm : Calm s.conn r) :
    Invariant (s.took r) :=
  took_invariant s r inv calm.frame.state (calm.sync inv.sync) (passive_jobs r.2 calm.quiet)

/-- The first functor of the batch leaves the queue; it is not the message, unless
the message is done with. -/
theorem pop_invariant (s : State) (first : Job) (rest : List Job) (inv : Invariant s)
    (batch : s.functors = first :: rest) (other : first.isMessage = false) :
    Invariant { s with functors := rest } := by
  have shorter : s.queue = first :: (rest ++ s.pendingFunctors) := by
    rw [State.queue, batch, List.cons_append]
  refine ⟨inv.sync, inv.state, inv.closing, ?_, ?_⟩
  · intro waiting
    have ordered := inv.ordered waiting
    rw [shorter] at ordered
    rcases ordered with message | ⟨_, later⟩
    · rw [other] at message
      cases message
    · exact later
  · intro started waiting
    obtain ⟨j, member, message⟩ := inv.queued started waiting
    rw [shorter] at member
    rcases List.mem_cons.mp member with rfl | behind
    · rw [other] at message
      cases message
    · exact ⟨j, behind, message⟩

/-- Once the message has run the order of the queue is of no concern. -/
theorem ran_invariant (s : State) (inv : Invariant s) (functors pending : List Job) :
    Invariant { s with functors := functors, pendingFunctors := pending, ran := true } := by
  refine ⟨inv.sync, inv.state, inv.closing, ?_, ?_⟩
  · intro waiting
    cases waiting
  · intro _ waiting
    cases waiting

theorem callerStep_spec (m : Message) (s : State) (inv : Invariant s) (going : s.caller ≠ .done) :
    ∃ t, callerStep m s = some t ∧ Invariant t ∧ t.conn.halfCloses = s.conn.halfCloses := by
  have state := inv.state
  have closing := inv.closing
  have queued := inv.queued
  unfold callerStep
  cases at_ : s.caller with
  | done => exact absurd at_ going
  | ready =>
      rw [at_] at state
      rw [sendArg_foreign s.conn m.mem m.behind (.accepted 0) m.arg state]
      refine ⟨_, rfl, ⟨inv.sync, state, ?_, ?_, ?_⟩, rfl⟩
      · intro effects swapped
        cases swapped
      · intro waiting
        have ordered := ordered_append s.queue [.message m.arg.bound] (inv.ordered waiting)
          (Or.inr (by simp))
        simpa [State.queue, messageJob, job] using ordered
      · intro _ _
        exact ⟨.message m.arg.bound, by simp [State.queue, messageJob, job], rfl⟩
  | sent =>
      rw [at_] at state queued
      have swap : s.conn.shutdown false =
          ({ s.conn with state := .kDisconnecting }, [.queueInLoop .shutdownInLoop]) := by
        rw [shutdown, if_pos (show s.conn.state = .kConnected from state)]
        rfl
      rw [swap]
      refine ⟨_, rfl, ⟨inv.sync.of_same rfl rfl, rfl, ?_, inv.ordered, ?_⟩, rfl⟩
      · intro effects swapped
        cases swapped
        rfl
      · intro _ waiting
        exact queued (by decide) waiting
  | swapped effects =>
      rw [at_] at state queued
      have pushed := closing effects at_
      subst pushed
      refine ⟨_, rfl, ⟨inv.sync, state, ?_, ?_, ?_⟩, rfl⟩
      · intro effects swapped
        cases swapped
      · intro waiting
        have ordered := ordered_append s.queue [.shutdownInLoop] (inv.ordered waiting)
          (Or.inl (queued (by simp) waiting))
        simpa [State.queue, job] using ordered
      · intro _ waiting
        have has := hasMessage_append s.queue [.shutdownInLoop] (queued (by simp) waiting)
        simpa [State.queue, job] using has

/-- The message stands ahead of the shutdownInLoop, so it has been run before it. -/
theorem ran_of_shutdownInLoop (s : State) (rest : List Job) (inv : Invariant s)
    (batch : s.functors = .shutdownInLoop :: rest) : s.ran = true := by
  cases waiting : s.ran with
  | true => rfl
  | false =>
      have ordered := inv.ordered waiting
      rw [State.queue, batch, List.cons_append] at ordered
      rcases ordered with message | ⟨other, _⟩
      · cases message
      · exact absurd rfl other

/-- shutdownInLoop closes the write half only when nothing is left to be written. -/
theorem pending_of_halfClose (s : State) (inv : Invariant s)
    (more : s.conn.halfCloses < s.conn.shutdownInLoop.halfCloses) : s.conn.pending = [] := by
  have quiet : s.conn.channel.isWriting ≠ true := by
    intro writing
    have same : s.conn.shutdownInLoop = s.conn := by rw [shutdownInLoop, if_pos writing]
    rw [same] at more
    omega
  by_contra some
  exact quiet (inv.sync.mpr some)

/-- What running one functor of the batch does. -/
theorem runJob_spec (s : State) (mem : Memory) (behind : Nat → UInt8) (answer : WriteResult)
    (first : Job) (rest : List Job) (inv : Invariant s) (batch : s.functors = first :: rest) :
    ∃ t, runJob { s with functors := rest } mem behind answer first = some t ∧ Invariant t ∧
      (HalfCloses s t → s.ran = true ∧ t.conn.pending = []) := by
  cases first with
  | message bound =>
      obtain ⟨r, ran, calm, same⟩ := runSend_calm s.conn mem behind answer bound
      have kept := calm_invariant s r inv calm
      refine ⟨{ ({ s with functors := rest }.took r : State) with ran := true }, ?_, ?_, ?_⟩
      · rw [runJob, ran]
        rfl
      · exact ran_invariant _ kept rest _
      · intro more
        exact absurd (show s.conn.halfCloses < r.1.halfCloses from more) (by omega)
  | send bound =>
      obtain ⟨r, ran, calm, same⟩ := runSend_calm s.conn mem behind answer bound
      have popped := pop_invariant s _ rest inv batch rfl
      refine ⟨({ s with functors := rest }.took r : State), ?_, ?_, ?_⟩
      · rw [runJob, ran]
        rfl
      · exact calm_invariant _ r popped calm
      · intro more
        exact absurd (show s.conn.halfCloses < r.1.halfCloses from more) (by omega)
  | shutdownInLoop =>
      have popped := pop_invariant s _ rest inv batch rfl
      obtain ⟨_, buffer, channel⟩ := shutdownInLoop_kept s.conn
      refine ⟨_, rfl, ⟨?_, ?_, popped.closing, popped.ordered, popped.queued⟩, ?_⟩
      · exact inv.sync.of_same buffer channel
      · exact (shutdownInLoop_outputOnly s.conn).state.trans inv.state
      · intro more
        refine ⟨ran_of_shutdownInLoop s rest inv batch, ?_⟩
        rw [pending, buffer]
        exact pending_of_halfClose s inv more
  | callback =>
      refine ⟨_, rfl, pop_invariant s _ rest inv batch rfl, ?_⟩
      intro more
      exact absurd more (Nat.lt_irrefl _)

/-- A step that does not add a half-close, and is no handleWrite, is in order. -/
theorem inOrder_of_same (s t : State) (label : Label)
    (same : t.conn.halfCloses = s.conn.halfCloses) (other : ¬ EarlyDrain s label) :
    InOrder s label t ↔ ¬ EarlyDrain s label := by
  constructor
  · intro _
    exact other
  · intro _ more
    unfold HalfCloses at more
    omega

theorem handleWrite_inOrder (s : State) (answer : WriteResult) (r : Outcome)
    (done : s.conn.handleWrite answer = some r) :
    InOrder s (.handleWrite answer) (s.took r) ↔ ¬ EarlyDrain s (.handleWrite answer) := by
  obtain ⟨count, empties⟩ := handleWrite_halfCloses s.conn answer r done
  have closes : HalfCloses s (s.took r) ↔
      s.conn.Drains answer ∧ s.conn.state = .kDisconnecting := by
    unfold HalfCloses
    rw [show (s.took r).conn.halfCloses = r.1.halfCloses from rfl, count]
    split
    · rename_i drains
      exact ⟨fun _ => drains, fun _ => by omega⟩
    · rename_i stays
      exact ⟨fun more => by omega, fun drains => absurd drains stays⟩
  unfold InOrder EarlyDrain
  rw [closes]
  constructor
  · intro ordered early
    have ran := (ordered ⟨early.1, early.2.1⟩).1
    rw [early.2.2] at ran
    cases ran
  · intro late drains
    refine ⟨?_, empties drains.1⟩
    cases waiting : s.ran with
    | true => rfl
    | false => exact absurd ⟨drains.1, drains.2, waiting⟩ late

/-- Every step that is allowed completes, keeps the invariant, and executes the
half-close out of order only at an early drain. -/
theorem next_spec (m : Message) (s : State) (label : Label) (inv : Invariant s)
    (allowed : Allowed s label) :
    ∃ t, next m s label = some t ∧ Invariant t ∧ (InOrder s label t ↔ ¬ EarlyDrain s label) := by
  cases label with
  | callerStep =>
      obtain ⟨t, stepped, kept, same⟩ := callerStep_spec m s inv allowed
      exact ⟨t, stepped, kept, inOrder_of_same s t _ same id⟩
  | handleWrite answer =>
      obtain ⟨r, done, calm⟩ := handleWrite_calm s.conn answer
      refine ⟨s.took r, ?_, calm_invariant s r inv calm, handleWrite_inOrder s answer r done⟩
      rw [next, done, Option.map_some]
  | swap =>
      have batch : s.functors = [] := allowed
      refine ⟨_, rfl, ⟨inv.sync, inv.state, inv.closing, ?_, ?_⟩, inOrder_of_same s _ _ rfl id⟩
      · simpa only [State.queue, batch, List.append_nil, List.nil_append] using inv.ordered
      · simpa only [State.queue, batch, List.append_nil, List.nil_append] using inv.queued
  | runFunctor mem behind answer =>
      cases batch : s.functors with
      | nil => exact absurd batch allowed.1
      | cons first rest =>
          obtain ⟨t, ran, kept, order⟩ := runJob_spec s mem behind answer first rest inv batch
          refine ⟨t, ?_, kept, ?_⟩
          · rw [next, batch]
            exact ran
          · exact ⟨fun _ => id, fun _ => order⟩
  | loopSend mem behind arg answer =>
      obtain ⟨r, left, done, calm, same⟩ := sendArg_calm s.conn mem behind answer arg
      refine ⟨s.took r, ?_, calm_invariant s r inv calm, inOrder_of_same s _ _ same id⟩
      rw [next, done, Option.map_some]
  | foreignSend mem behind arg =>
      by_cases connected : s.conn.state = .kConnected
      · refine ⟨s.took (s.conn, [.queueInLoop (.sendInLoop arg.bound)]), ?_, ?_,
          inOrder_of_same s _ _ rfl id⟩
        · rw [next, sendArg_foreign s.conn mem behind (.accepted 0) arg connected, Option.map_some]
        · exact took_invariant s _ inv rfl inv.sync (by simp [job])
      · refine ⟨s.took (s.conn, []), ?_, ?_, inOrder_of_same s _ _ rfl id⟩
        · rw [next, sendArg_closed s.conn mem behind false (.accepted 0) arg connected,
            Option.map_some]
        · exact calm_invariant s _ inv (Calm.refl s.conn)

theorem next_preserves (m : Message) : (machine m).Preserves Invariant := by
  intro s label t inv allowed moved
  obtain ⟨u, stepped, kept, _⟩ := next_spec m s label inv allowed
  obtain rfl : u = t := Option.some.inj (stepped.symm.trans moved)
  exact kept

theorem step_inOrder (m : Message) (s : State) (label : Label) (t : State) (inv : Invariant s)
    (allowed : (machine m).enabled s label) (moved : (machine m).step s label = some t) :
    InOrder s label t ↔ ¬ EarlyDrain s label := by
  obtain ⟨u, stepped, _, agree⟩ := next_spec m s label inv allowed
  obtain rfl : u = t := Option.some.inj (stepped.symm.trans moved)
  exact agree

/-- In every run, each half-close comes after m's sendInLoop and with an empty buffer
exactly when handleWrite never drains early. -/
theorem sendShutdown_inOrder_iff (m : Message) (s : State) (connected : Connected s)
    (labels : List Label) (t : State) (run : (machine m).Run s labels t) :
    ((machine m).Along InOrder s labels ↔
      (machine m).Along (fun s label _ => ¬ EarlyDrain s label) s labels) ∧
      ∀ label, (machine m).enabled t label → ∃ u, (machine m).step t label = some u := by
  have start := connected_invariant s connected
  refine ⟨run.along_iff (next_preserves m) (step_inOrder m) start, ?_⟩
  intro label allowed
  obtain ⟨u, moved, _⟩ := next_spec m t label (run.invariant (next_preserves m) start) allowed
  exact ⟨u, moved⟩

instance (m : Message) (s : State) (label : Label) : Decidable ((machine m).enabled s label) :=
  inferInstanceAs (Decidable (Allowed s label))

/-- An established connection before the caller's send of the letter B. -/
def opening : State := ⟨established [99] 5, [], [], .ready, false⟩
def letterB : Message := ⟨.string 1 1, letters, letters⟩

theorem opening_connected : Connected opening := by
  refine ⟨rfl, ?_, by decide, rfl, rfl⟩
  unfold InSync
  rw [show opening.conn.pending = [] from Buffer.fresh_content]
  decide

/-- The queue is run before the buffer drains. -/
def patient : List Label :=
  [.loopSend letters letters (.pointer 0 1) (.accepted 0), .callerStep, .callerStep, .callerStep,
    .swap, .runFunctor letters letters (.accepted 0), .runFunctor letters letters (.accepted 0),
    .handleWrite (.accepted 2)]

/-- The letter A drains between the compare-and-swap and the batch. -/
def hasty : List Label :=
  [.loopSend letters letters (.pointer 0 1) (.accepted 0), .callerStep, .callerStep,
    .handleWrite (.accepted 1)]

instance (s : State) (label : Label) (t : State) : Decidable (InOrder s label t) :=
  inferInstanceAs (Decidable (s.conn.halfCloses < t.conn.halfCloses →
    s.ran = true ∧ t.conn.pending = []))

instance (s : State) : (label : Label) → Decidable (EarlyDrain s label)
  | .handleWrite answer => inferInstanceAs (Decidable (s.conn.Drains answer ∧
      s.conn.state = .kDisconnecting ∧ s.ran = false))
  | .callerStep | .swap => inferInstanceAs (Decidable False)
  | .runFunctor _ _ _ | .loopSend _ _ _ _ | .foreignSend _ _ _ =>
      inferInstanceAs (Decidable False)

theorem sendShutdown_inOrder_patient :
    ∃ t, (machine letterB).Run opening patient t ∧ t.conn.halfCloses = 1 ∧
      (machine letterB).Along InOrder opening patient := by
  obtain ⟨t, run, closed⟩ := (machine letterB).exists_run_of_play opening patient
    (fun t => t.conn.halfCloses) 1 (by decide +kernel)
  refine ⟨t, run, closed, ?_⟩
  have agree := (sendShutdown_inOrder_iff letterB opening opening_connected patient t run).1
  exact agree.mpr (by decide +kernel)

/-- The socket is half-closed and the caller's B is still in the queue. -/
theorem sendShutdown_outOfOrder :
    Connected opening ∧ ∃ t, (machine letterB).Run opening hasty t ∧
      t.conn.halfCloses = 1 ∧ t.ran = false ∧ t.queue = [.message (.pointer 1 1)] ∧
      ¬ (machine letterB).Along InOrder opening hasty := by
  obtain ⟨t, run, seen⟩ := (machine letterB).exists_run_of_play opening hasty
    (fun t => (t.conn.halfCloses, t.ran, t.queue)) (1, false, [.message (.pointer 1 1)])
    (by decide +kernel)
  simp only [Prod.mk.injEq] at seen
  refine ⟨opening_connected, t, run, seen.1, seen.2.1, seen.2.2, ?_⟩
  decide +kernel

end Tundra.SendShutdown
