import Tundra.Net.ConnectionLifecycle

set_option autoImplicit false

/- What a step of a TcpServer leaves alone: it queues functors, lists connections and
registers channels only for the connections that take part in it. -/
namespace Tundra

/-- The functor is bound to a shared pointer; the others are bound to `this`. -/
def Functor.shared : Functor → Bool
  | .writeCompleteCallback | .highWaterMarkCallback _ | .forceCLoseInLoop | .connectDestroyed =>
      true
  | .sendInLoop _ | .shutdownInLoop => false

namespace TcpConnection

/-- Only functors with a shared pointer are queued, and the channel of a connection that
is down is not registered again. -/
structure Tame (c : TcpConnection) (r : Outcome) : Prop where
  queues : ∀ f, Effect.queueInLoop f ∈ r.2 → f.shared = true
  down : c.Down → r.1.Down ∧
    (r.1.channel.addedToLoop = true → c.channel.addedToLoop = true)

theorem Tame.refl (c : TcpConnection) : Tame c (c, []) :=
  ⟨fun _ member => (by cases member), fun down => ⟨down, id⟩⟩

/-- The operation leaves the channel as it is. -/
theorem Tame.of_channel {c : TcpConnection} {r : Outcome}
    (queues : ∀ f, Effect.queueInLoop f ∈ r.2 → f.shared = true)
    (down : c.Down → r.1.Down) (channel : r.1.channel = c.channel) : Tame c r :=
  ⟨queues, fun off => ⟨down off, by rw [channel]; exact id⟩⟩

/-- The operation wants a connection that is not down. -/
theorem Tame.of_not_down {c : TcpConnection} {r : Outcome}
    (queues : ∀ f, Effect.queueInLoop f ∈ r.2 → f.shared = true) (off : ¬ c.Down) : Tame c r :=
  ⟨queues, fun down => absurd down off⟩

theorem shared_of_passive {effects : List Effect} (quiet : ∀ e ∈ effects, passive e)
    (f : Functor) (member : Effect.queueInLoop f ∈ effects) : f.shared = true := by
  have known := quiet _ member
  cases f with
  | writeCompleteCallback => rfl
  | highWaterMarkCallback len => rfl
  | forceCLoseInLoop => rfl
  | connectDestroyed => rfl
  | sendInLoop bound => exact absurd known id
  | shutdownInLoop => exact absurd known id

theorem Calm.tame {c : TcpConnection} {r : Outcome} (calm : Calm c r)
    (down : c.Down → r = (c, [])) : Tame c r := by
  refine ⟨shared_of_passive calm.quiet, ?_⟩
  intro off
  rw [down off]
  exact ⟨off, id⟩

theorem sendArg_tame (c : TcpConnection) (mem : Memory) (behind : Nat → UInt8)
    (answer : WriteResult) (arg : SendArg) (r : Outcome)
    (done : (c.sendArg mem behind true answer arg).map Prod.fst = some r) : Tame c r := by
  obtain ⟨q, left, sent, calm, _⟩ := sendArg_calm c mem behind answer arg
  rw [sent] at done
  cases done
  apply calm.tame
  intro down
  have closed : c.state ≠ .kConnected := by simp [down.1]
  rw [sendArg_closed c mem behind true answer arg closed] at sent
  cases sent
  rfl

theorem runSend_tame (c : TcpConnection) (mem : Memory) (behind : Nat → UInt8)
    (answer : WriteResult) (bound : Bound) (r : Outcome)
    (done : c.runSend mem behind answer bound = some r) : Tame c r := by
  obtain ⟨q, ran, calm, _⟩ := runSend_calm c mem behind answer bound
  obtain rfl : q = r := Option.some.inj (ran.symm.trans done)
  apply calm.tame
  intro down
  cases bound with
  | pointer msg len =>
      rw [runSend, sendInLoop, if_pos down.1] at ran
      cases ran
      rfl
  | string msg =>
      rw [runSend, sendInLoop, if_pos down.1] at ran
      cases ran
      rfl

theorem handleWrite_tame (c : TcpConnection) (answer : WriteResult) (r : Outcome)
    (done : c.handleWrite answer = some r) : Tame c r := by
  obtain ⟨q, wrote, calm⟩ := handleWrite_calm c answer
  obtain rfl : q = r := Option.some.inj (wrote.symm.trans done)
  apply calm.tame
  intro down
  have silent : ¬ c.channel.isWriting = true := by
    simp [Channel.isWriting, down.2, Events.kNoneEvent]
  unfold handleWrite at wrote
  rw [if_neg silent] at wrote
  cases wrote
  rfl

theorem shutdownInLoop_tame (c : TcpConnection) : Tame c (c.shutdownInLoop, []) := by
  have channel : c.shutdownInLoop.channel = c.channel := by
    unfold shutdownInLoop
    split
    · rfl
    · rfl
  exact Tame.of_channel (fun _ member => by cases member) (shutdownInLoop_gentle c).down channel

theorem shutdown_tame (c : TcpConnection) : Tame c (c.shutdown true) := by
  unfold shutdown
  split
  · rename_i connected
    refine Tame.of_not_down (fun _ member => by cases member) ?_
    exact TcpConnection.Up.not_down (Or.inl connected)
  · exact Tame.refl c

theorem forceClose_tame (c : TcpConnection) : Tame c c.forceClose := by
  unfold forceClose
  split
  · rename_i up
    refine Tame.of_not_down ?_ (TcpConnection.Up.not_down up)
    intro f member
    cases List.mem_singleton.mp member
    rfl
  · exact Tame.refl c

theorem forceCLoseWithDelay_tame (c : TcpConnection) : Tame c c.forceCLoseWithDelay := by
  unfold forceCLoseWithDelay
  split
  · rename_i up
    refine Tame.of_not_down ?_ (TcpConnection.Up.not_down up)
    intro f member
    cases List.mem_singleton.mp member
  · exact Tame.refl c

theorem handleClose_tame (c : TcpConnection) (r : Outcome) (done : c.handleClose = some r) :
    Tame c r := by
  unfold handleClose at done
  split at done
  · rename_i up
    cases done
    refine Tame.of_not_down ?_ (TcpConnection.Up.not_down up)
    intro f member
    cases List.mem_singleton.mp member
  · cases done

theorem connectEstablished_tame (c : TcpConnection) (r : Outcome)
    (done : c.connectEstablished = some r) : Tame c r := by
  unfold connectEstablished at done
  split at done
  · rename_i connecting
    cases done
    refine Tame.of_not_down ?_ ?_
    · intro f member
      cases List.mem_singleton.mp member
    · intro down
      cases connecting.symm.trans down.1
  · cases done

theorem input_tame (c : TcpConnection) (input : Buffer) :
    Tame c ({ c with inputBuffer := input }, []) :=
  Tame.of_channel (fun _ member => by cases member) id rfl

end TcpConnection

namespace TcpServer

open TcpConnection (Outcome Tame)

/-- The functors of the batch under way and those behind it. -/
def State.queued (s : State) : List (Nat × Functor) := s.functors ++ s.pendingFunctors

def UserCall.conn : UserCall → Nat
  | .send i _ _ _ _ | .shutdown i | .forceClose i | .forceCLoseWithDelay i => i

/-- How often connectDestroyed has been called. -/
def destroys (o : ConnectionObject) : Nat := o.calls.count .connectDestroyed

/-- The object of a connection behind steps that are tame for it. -/
structure Tamed (o p : ConnectionObject) : Prop where
  destroys : TcpServer.destroys p = TcpServer.destroys o
  down : o.conn.Down → p.conn.Down ∧
    (p.conn.channel.addedToLoop = true → o.conn.channel.addedToLoop = true)

theorem Tamed.refl (o : ConnectionObject) : Tamed o o := ⟨rfl, fun down => ⟨down, id⟩⟩

/-- The step acts for the connections in `acts` only. -/
structure Within (acts : Nat → Prop) (s t : State) : Prop where
  queue : ∀ q ∈ t.queued, q ∈ s.queued ∨ acts q.1 ∧ q.2.shared = true
  listed : ∀ name i, t.server.connections.find name = some i →
    s.server.connections.find name = some i ∨ acts i
  objects : ∀ (i : Nat) (o : ConnectionObject), s.objects[i]? = some o →
    ∃ p, t.objects[i]? = some p ∧ Tamed o p

variable {acts : Nat → Prop} {s t u : State}

theorem Within.refl (s : State) : Within acts s s :=
  ⟨fun _ member => Or.inl member, fun _ _ held => Or.inl held,
    fun _ o found => ⟨o, found, Tamed.refl o⟩⟩

theorem Within.trans (first : Within acts s t) (second : Within acts t u) : Within acts s u where
  queue := by
    intro q member
    rcases second.queue q member with old | new
    · exact first.queue q old
    · exact Or.inr new
  listed := by
    intro name i held
    rcases second.listed name i held with old | new
    · exact first.listed name i old
    · exact Or.inr new
  objects := by
    intro i o found
    obtain ⟨p, there, tamed⟩ := first.objects i o found
    obtain ⟨q, last, further⟩ := second.objects i p there
    refine ⟨q, last, further.destroys.trans tamed.destroys, ?_⟩
    intro down
    obtain ⟨off, before⟩ := tamed.down down
    exact ⟨(further.down off).1, fun added => before ((further.down off).2 added)⟩

/-- A chain of two calls. -/
theorem Within.bind {first : Option State} {second : State → Option State}
    (done : first.bind second = some u) (begins : ∀ t, first = some t → Within acts s t)
    (goes : ∀ t, second t = some u → Within acts t u) : Within acts s u := by
  obtain ⟨t, one, two⟩ := Option.bind_eq_some_iff.mp done
  exact (begins t one).trans (goes t two)

/-- Nothing but the queue changes. -/
theorem Within.of_queue (server : t.server.connections = s.server.connections)
    (objects : t.objects = s.objects)
    (queue : ∀ q ∈ t.queued, q ∈ s.queued ∨ acts q.1 ∧ q.2.shared = true) : Within acts s t where
  queue := queue
  listed := by
    rw [server]
    exact fun _ _ held => Or.inl held
  objects := by
    rw [objects]
    exact fun _ o found => ⟨o, found, Tamed.refl o⟩

/-- Functors with a shared pointer are put behind the others. -/
theorem queued_push {q : Nat × Functor} (i : Nat) (f : Functor) (acting : acts i)
    (shared : f.shared = true)
    (member : q ∈ s.functors ++ (s.pendingFunctors ++ [(i, f)])) :
    q ∈ s.queued ∨ acts q.1 ∧ q.2.shared = true := by
  rw [← List.append_assoc] at member
  rcases List.mem_append.mp member with old | new
  · exact Or.inl old
  · rw [List.mem_singleton.mp new]
    exact Or.inr ⟨acting, shared⟩

theorem effect_within (s : State) (i : Nat) (e : Effect) (acting : acts i)
    (shared : ∀ f, e = .queueInLoop f → f.shared = true) : Within acts s (s.effect i e) := by
  cases e with
  | queueInLoop f =>
      refine Within.of_queue rfl rfl ?_
      intro q member
      exact queued_push i f acting (shared f rfl) member
  | runAfterForceClose =>
      exact Within.of_queue rfl rfl fun _ member => Or.inl member
  | updateChannel events => exact Within.refl s
  | removeChannel => exact Within.refl s

theorem effects_within (s : State) (i : Nat) (effects : List Effect) (acting : acts i)
    (shared : ∀ f, Effect.queueInLoop f ∈ effects → f.shared = true) :
    Within acts s (effects.foldl (State.effect i) s) := by
  induction effects generalizing s with
  | nil => exact Within.refl s
  | cons e rest ih =>
      have first := effect_within s i e acting fun f same =>
        shared f (by rw [same]; exact List.mem_cons_self)
      exact first.trans (ih (s.effect i e) fun f member =>
        shared f (List.mem_cons_of_mem e member))

/-- A change of one object. -/
theorem modify_within (s : State) (i : Nat) (f : ConnectionObject → ConnectionObject)
    (tamed : ∀ o, s.objects[i]? = some o → Tamed o (f o)) :
    Within acts s { s with objects := s.objects.modify i f } := by
  refine ⟨fun _ member => Or.inl member, fun _ _ held => Or.inl held, ?_⟩
  intro j o found
  by_cases same : i = j
  · subst same
    exact ⟨f o, by simp [found], tamed o found⟩
  · exact ⟨o, by simp [same, found], Tamed.refl o⟩

theorem apply_within_at (i : Nat) (op : TcpConnection → Option Outcome) (acting : acts i)
    (tame : ∀ o r, s.objects[i]? = some o → op o.conn = some r → Tame o.conn r)
    (done : s.apply i op = some t) : Within acts s t := by
  unfold State.apply at done
  cases found : s.objects[i]? with
  | none =>
      rw [found] at done
      cases done
      exact Within.refl _
  | some o =>
      rw [found] at done
      obtain ⟨r, applied, rfl⟩ := Option.map_eq_some_iff.mp done
      have kind := tame o r found applied
      have moved : Within acts s (s.setConn i r.1) := by
        apply modify_within
        intro p there
        obtain rfl : o = p := Option.some.inj (found.symm.trans there)
        exact ⟨rfl, kind.down⟩
      exact moved.trans (effects_within (s.setConn i r.1) i r.2 acting kind.queues)

theorem apply_within (i : Nat) (op : TcpConnection → Option Outcome) (acting : acts i)
    (tame : ∀ c r, op c = some r → Tame c r) (done : s.apply i op = some t) :
    Within acts s t :=
  apply_within_at i op acting (fun o r _ applied => tame o.conn r applied) done

theorem userCall_within (call : UserCall) (acting : acts call.conn)
    (done : s.userCall call = some t) : Within acts s t := by
  cases call with
  | send i arg mem behind answer =>
      exact apply_within i _ acting (fun c => c.sendArg_tame mem behind answer arg) done
  | shutdown i =>
      exact apply_within i _ acting (fun c r same => Option.some.inj same ▸ c.shutdown_tame) done
  | forceClose i =>
      exact apply_within i _ acting (fun c r same => Option.some.inj same ▸ c.forceClose_tame) done
  | forceCLoseWithDelay i =>
      exact apply_within i _ acting
        (fun c r same => Option.some.inj same ▸ c.forceCLoseWithDelay_tame) done

theorem userCalls_within (calls : List UserCall) (acting : ∀ call ∈ calls, acts call.conn)
    (done : s.userCalls calls = some t) : Within acts s t := by
  induction calls generalizing s with
  | nil =>
      cases done
      exact Within.refl _
  | cons call rest ih =>
      rw [List.forall_mem_cons] at acting
      exact Within.bind done (fun u => userCall_within call acting.1) fun u => ih acting.2

/-- A call other than connectDestroyed is noted. -/
theorem note_within (s : State) (i : Nat) (call : TcpConnection → Call)
    (other : ∀ c, call c ≠ .connectDestroyed) : Within acts s (s.note i call) := by
  apply modify_within
  intro o _
  refine ⟨?_, fun down => ⟨down, id⟩⟩
  have differs : ¬ (call o.conn == .connectDestroyed) = true := by simp [other o.conn]
  rw [destroys, destroys, ConnectionObject.note, List.count_append, List.count_singleton,
    if_neg differs, Nat.add_zero]

theorem connectionCallback_within (i : Nat) (calls : List UserCall)
    (acting : ∀ call ∈ calls, acts call.conn) (done : s.connectionCallback i calls = some t) :
    Within acts s t := by
  have noted : Within acts s (s.note i fun c => .connectionCallback (c.state == .kConnected)) :=
    note_within s i _ fun _ => by simp
  exact noted.trans (userCalls_within calls acting done)

theorem removeConnectionInLoop_within (i : Nat) (acting : acts i)
    (done : s.removeConnectionInLoop i = some t) : Within acts s t := by
  unfold State.removeConnectionInLoop at done
  split at done
  · cases done
  · rename_i o found
    dsimp only at done
    split at done
    · cases done
      refine ⟨?_, ?_, fun _ p there => ⟨p, there, Tamed.refl p⟩⟩
      · intro q member
        exact queued_push i .connectDestroyed acting rfl member
      · intro name j held
        left
        by_cases same : o.conn.name = name
        · subst same
          rw [Library.OrderedMap.find_erase_self] at held
          cases held
        · rw [Library.OrderedMap.find_erase_of_ne _ same] at held
          exact held
    · cases done

theorem handleClose_within (i : Nat) (calls : List UserCall) (acting : acts i)
    (others : ∀ call ∈ calls, acts call.conn) (done : s.handleClose i calls = some t) :
    Within acts s t := by
  apply Within.bind done
  · intro u
    exact apply_within i _ acting TcpConnection.handleClose_tame
  · intro u rest
    apply Within.bind rest
    · intro v
      exact connectionCallback_within i calls others
    · intro v removed
      have noted : Within acts v (v.note i fun _ => .closeCallback) :=
        note_within v i _ fun _ => by simp
      exact noted.trans (removeConnectionInLoop_within i acting removed)

theorem messageCallback_within (i : Nat) (answers : State.Answers) (acting : acts i)
    (others : ∀ call ∈ answers.onMessage, acts call.conn)
    (done : s.messageCallback i answers = some t) : Within acts s t := by
  apply Within.bind done
  · intro u
    exact apply_within i _ acting fun c r same =>
      Option.some.inj same ▸ c.input_tame answers.inputLeft
  · intro u
    exact userCalls_within answers.onMessage others

theorem handleRead_within (i : Nat) (answers : State.Answers) (acting : acts i)
    (others : ∀ call ∈ answers.onConnection ++ answers.onMessage, acts call.conn)
    (done : s.handleRead i answers = some t) : Within acts s t := by
  unfold State.handleRead at done
  split at done
  · cases done
    exact Within.refl s
  · apply Within.bind done
    · intro u
      refine apply_within i _ acting ?_
      intro c r read
      obtain ⟨input, _, rfl⟩ := Option.map_eq_some_iff.mp read
      exact c.input_tame input
    · intro u rest
      split at rest
      · cases rest
        exact Within.refl u
      · exact handleClose_within i _ acting
          (fun call member => others call (List.mem_append_left _ member)) rest
      · exact messageCallback_within i answers acting
          (fun call member => others call (List.mem_append_right _ member)) rest

theorem callbacks_within (i : Nat) (answers : State.Answers) (cs : List Callback)
    (acting : acts i)
    (others : ∀ call ∈ answers.onConnection ++ answers.onMessage, acts call.conn)
    (done : s.callbacks i answers cs = some t) : Within acts s t := by
  induction cs generalizing s with
  | nil =>
      cases done
      exact Within.refl _
  | cons c rest ih =>
      apply Within.bind done
      · intro u called
        cases c with
        | close =>
            exact handleClose_within i _ acting
              (fun call member => others call (List.mem_append_left _ member)) called
        | error =>
            cases called
            exact Within.refl s
        | read => exact handleRead_within i answers acting others called
        | write =>
            exact apply_within i _ acting (fun c => c.handleWrite_tame answers.written) called
      · intro u
        exact ih

/-- The connections that take part in the step. -/
def acting (s : State) : Label → Nat → Prop
  | .newConnection _ calls, i => i = s.objects.length ∨ ∃ call ∈ calls, call.conn = i
  | .poll _, _ => False
  | .handleEvent answers, i => (∃ revents, s.activeChannels.head? = some (i, revents)) ∨
      ∃ call ∈ answers.onConnection ++ answers.onMessage, call.conn = i
  | .doPendingFunctors, _ => False
  | .runFunctor around, i => (∃ f, s.functors.head? = some (i, f)) ∨
      ∃ call ∈ around.calls, call.conn = i
  | .fireTimer j locked, i => locked = true ∧ i = j
  | .call call, i => call.conn = i

theorem register_within (sockfd : Int) (calls : List UserCall) :
    Within (acting s (.newConnection sockfd calls)) s (s.register sockfd) := by
  refine ⟨fun _ member => Or.inl member, ?_, ?_⟩
  · intro name i held
    by_cases same : s.server.connName s.server.nextConnId = name
    · subst same
      rw [State.register, Library.OrderedMap.find_insert_self] at held
      exact Or.inr (Or.inl (Option.some.inj held).symm)
    · rw [State.register, Library.OrderedMap.find_insert_of_ne _ _ same] at held
      exact Or.inl held
  · intro i o found
    have inside := (List.getElem?_eq_some_iff.mp found).1
    exact ⟨o, (List.getElem?_append_left inside).trans found, Tamed.refl o⟩

theorem newConnection_within (sockfd : Int) (calls : List UserCall)
    (done : s.newConnection sockfd calls = some t) :
    Within (acting s (.newConnection sockfd calls)) (s.register sockfd) t := by
  apply Within.bind done
  · intro u
    exact apply_within _ _ (Or.inl rfl) TcpConnection.connectEstablished_tame
  · intro u
    exact connectionCallback_within _ calls fun call member => Or.inr ⟨call, member, rfl⟩

/-- The functor does its work behind the pop. -/
theorem runFunctor_within (around : State.Surroundings) (i : Nat) (f : Functor) (acting : acts i)
    (others : ∀ call ∈ around.calls, acts call.conn) (ordinary : f ≠ .connectDestroyed)
    (done : s.runFunctor i around f = some t) : Within acts s t := by
  cases f with
  | writeCompleteCallback => exact userCalls_within around.calls others done
  | highWaterMarkCallback len => exact userCalls_within around.calls others done
  | sendInLoop bound =>
      exact apply_within i _ acting
        (fun c => c.runSend_tame around.mem around.behind around.written bound) done
  | shutdownInLoop =>
      exact apply_within i _ acting
        (fun c r same => Option.some.inj same ▸ c.shutdownInLoop_tame) done
  | forceCLoseInLoop =>
      simp only [State.runFunctor, State.forceCLoseInLoop] at done
      split at done
      · cases done
        exact Within.refl _
      · split at done
        · exact handleClose_within i around.calls acting others done
        · cases done
          exact Within.refl _
  | connectDestroyed => exact absurd rfl ordinary

/-- Every step but a connectDestroyed. -/
theorem next_within (label : Label) (enabled : Enabled s label)
    (ordinary : ∀ around i, label = .runFunctor around →
      s.functors.head? ≠ some (i, .connectDestroyed))
    (moved : next s label = some t) : Within (acting s label) s t := by
  cases label with
  | newConnection sockfd calls =>
      exact (register_within sockfd calls).trans (newConnection_within sockfd calls moved)
  | poll active =>
      cases moved
      exact Within.of_queue rfl rfl fun _ member => Or.inl member
  | handleEvent answers =>
      simp only [next] at moved
      split at moved
      · cases moved
      · rename_i i revents rest active
        have pops : Within (acting s (.handleEvent answers)) s
            { s with activeChannels := rest } :=
          Within.of_queue rfl rfl fun _ member => Or.inl member
        apply pops.trans
        refine callbacks_within i answers _ (Or.inl ⟨revents, by rw [active]; rfl⟩) ?_ moved
        exact fun call member => Or.inr ⟨call, member, rfl⟩
  | doPendingFunctors =>
      cases moved
      refine Within.of_queue rfl rfl fun q member => Or.inl ?_
      simpa [State.queued, enabled.2] using member
  | runFunctor around =>
      simp only [next] at moved
      split at moved
      · cases moved
      · rename_i i f rest batch
        have pops : Within (acting s (.runFunctor around)) s { s with functors := rest } := by
          refine Within.of_queue rfl rfl fun q member => Or.inl ?_
          rw [State.queued, batch]
          exact List.mem_cons_of_mem _ member
        apply pops.trans
        refine runFunctor_within around i f (Or.inl ⟨f, by rw [batch]; rfl⟩)
          (fun call member => Or.inr ⟨call, member, rfl⟩) ?_ moved
        intro last
        exact ordinary around i rfl (by rw [batch, last]; rfl)
  | fireTimer i locked =>
      have fires : Within (acting s (.fireTimer i locked)) s
          { s with timers := s.timers.erase i } :=
        Within.of_queue rfl rfl fun _ member => Or.inl member
      cases locked with
      | false =>
          cases moved
          exact fires
      | true =>
          exact fires.trans (apply_within i _ ⟨rfl, rfl⟩
            (fun c r same => Option.some.inj same ▸ c.forceClose_tame) moved)
  | call call => exact userCall_within call rfl moved

/-- What connectDestroyed does to a connection that is down. -/
theorem connectDestroyed_frame {i : Nat} (allBut : AllBut s i ⟨false, false, 1, 1, 1, 0⟩)
    (inside : i < s.objects.length) (calls : List UserCall)
    (done : s.connectDestroyed i calls = some t) :
    t.queued = s.queued ∧ t.server = s.server ∧
      (∀ j, j ≠ i → t.objects[j]? = s.objects[j]?) ∧
      ∀ p, t.objects[i]? = some p → p.conn.channel.addedToLoop = false := by
  obtain ⟨o, found, fits⟩ := allBut.fits inside
  have down : o.conn.Down := fits.down rfl
  have none : o.conn.channel.isNoneEvent = true := (o.conn.channel.isNoneEvent_iff).mpr down.2
  have noted : (s.note i fun _ => .connectDestroyed).objects[i]? =
      some (o.note fun _ => .connectDestroyed) := by
    simp [State.note, found]
  have notUp : ¬ (o.note fun _ => .connectDestroyed).conn.state = .kConnected := by
    simp [ConnectionObject.note, down.1]
  have removed : (o.note fun _ => .connectDestroyed).conn.removeChannel =
      some ({ o.conn with channel := { o.conn.channel with addedToLoop := false } },
        [.removeChannel]) := by
    rw [TcpConnection.removeChannel, ConnectionObject.note, Channel.remove, if_pos none,
      Option.map_some]
  simp only [State.connectDestroyed, noted, notUp, if_false, Option.bind_some, State.apply,
    removed, Option.map_some, Option.some.injEq] at done
  subst done
  refine ⟨rfl, rfl, ?_, ?_⟩
  · intro j other
    simp [State.effect, State.setConn, State.note, Ne.symm other]
  · intro p there
    simp [State.effect, State.setConn, State.note, found] at there
    rw [← there]
    rfl

/-- What holds of a step whatever it is: an object that has been there is tame or has had
its channel removed, and one that has not is new. -/
structure Framed (acts : Nat → Prop) (s t : State) : Prop where
  queue : ∀ q ∈ t.queued, q ∈ s.queued ∨ acts q.1 ∧ q.2.shared = true
  listed : ∀ name i, t.server.connections.find name = some i →
    s.server.connections.find name = some i ∨ acts i
  objects : ∀ (i : Nat) (p : ConnectionObject), t.objects[i]? = some p →
    (∃ o, s.objects[i]? = some o ∧ Tamed o p) ∨ p.conn.channel.addedToLoop = false ∨
      destroys p = 0

theorem Within.framed (within : Within acts s t) (size : t.objects.length = s.objects.length) :
    Framed acts s t := by
  refine ⟨within.queue, within.listed, ?_⟩
  intro i p there
  have inside : i < s.objects.length := by
    rw [← size]
    exact (List.getElem?_eq_some_iff.mp there).1
  obtain ⟨q, same, tamed⟩ := within.objects i _ (List.getElem?_eq_getElem inside)
  obtain rfl : q = p := Option.some.inj (same.symm.trans there)
  exact Or.inl ⟨_, List.getElem?_eq_getElem inside, tamed⟩

theorem newConnection_framed (sockfd : Int) (calls : List UserCall)
    (done : s.newConnection sockfd calls = some t)
    (size : t.objects.length = s.objects.length + 1) :
    Framed (acting s (.newConnection sockfd calls)) s t := by
  have joins : Within (acting s (.newConnection sockfd calls)) s (s.register sockfd) :=
    register_within sockfd calls
  have goes := newConnection_within sockfd calls done
  have whole := joins.trans goes
  refine ⟨whole.queue, whole.listed, ?_⟩
  intro i p there
  by_cases inside : i < s.objects.length
  · obtain ⟨q, same, tamed⟩ := whole.objects i _ (List.getElem?_eq_getElem inside)
    obtain rfl : q = p := Option.some.inj (same.symm.trans there)
    exact Or.inl ⟨_, List.getElem?_eq_getElem inside, tamed⟩
  · have last : i = s.objects.length := by
      have below := (List.getElem?_eq_some_iff.mp there).1
      omega
    obtain ⟨q, same, tamed⟩ := goes.objects i _
      (by rw [last, State.register]; exact List.getElem?_concat_length)
    obtain rfl : q = p := Option.some.inj (same.symm.trans there)
    exact Or.inr (Or.inr tamed.destroys)

/-- The step of a connectDestroyed. -/
theorem runFunctor_framed (inv : Invariant s) (around : State.Surroundings) (i : Nat)
    (rest : List (Nat × Functor)) (batch : s.functors = (i, .connectDestroyed) :: rest)
    (done : (s.popped rest).connectDestroyed i around.calls = some t) : Framed acts s t := by
  obtain ⟨inside, allBut⟩ := popped_allBut inv batch
  obtain ⟨queue, server, others, off⟩ :=
    connectDestroyed_frame allBut inside around.calls done
  refine ⟨?_, ?_, ?_⟩
  · intro q member
    rw [queue] at member
    left
    rw [State.queued, batch]
    exact List.mem_cons_of_mem _ member
  · rw [server]
    exact fun _ _ held => Or.inl held
  · intro j p there
    by_cases same : j = i
    · subst same
      exact Or.inr (Or.inl (off p there))
    · rw [others j same] at there
      exact Or.inl ⟨p, there, Tamed.refl p⟩

theorem next_framed (inv : Invariant s) (label : Label) (enabled : Enabled s label)
    (few : s.objects.length + (if label.isNewConnection then 1 else 0) < 2 ^ 31) :
    ∃ t, next s label = some t ∧ Invariant t ∧ Framed (acting s label) s t := by
  obtain ⟨t, moved, size, kept⟩ := next_survives s label inv enabled few
  refine ⟨t, moved, kept, ?_⟩
  by_cases last : ∃ around i rest, label = .runFunctor around ∧
      s.functors = (i, .connectDestroyed) :: rest
  · obtain ⟨around, i, rest, rfl, batch⟩ := last
    simp only [next, batch] at moved
    exact runFunctor_framed inv around i rest batch moved
  · have within := next_within label enabled (by
      intro around i same head
      obtain ⟨rest, batch⟩ := List.head?_eq_some_iff.mp head
      exact last ⟨around, i, rest, same, batch⟩) moved
    cases label with
    | newConnection sockfd calls => exact newConnection_framed sockfd calls moved size
    | poll | handleEvent | doPendingFunctors | runFunctor | fireTimer | call =>
        exact within.framed size

end TcpServer
end Tundra
