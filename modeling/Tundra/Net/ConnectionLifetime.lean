import Mathlib.Logic.Function.Basic
import Tundra.Net.ConnectionFrame

set_option autoImplicit false

/- How long the connections of a TcpServer live. They are held by shared pointers: by
connections_, by functors, and by user code on whatever thread. Some functors hold the
bare address of a connection instead, as activeChannels_ does. -/
namespace Tundra.ConnectionLifetime

open Library TcpServer
open TcpConnection (Outcome Gentle Tame)

/-- Where a forceClose or forceCLoseWithDelay of a foreign thread is: behind its test of state_,
or behind its store of kDisconnecting. -/
inductive Forcing
  | tested (delayed : Bool)
  | stored (delayed : Bool)
deriving DecidableEq

/-- `pointers` are the shared pointers of user code, `forcing` the calls that go through them.
`finished` are the functors of the batch that have run: functors_ keeps them until
doPendingFunctors returns. -/
structure State (κ : Type*) where
  loop : TcpServer.State
  finished : List (Nat × Functor)
  pointers : κ → Option Nat
  forcing : κ → Option Forcing

/-- The labels behind `store` and `reset` are what a foreign thread does with one of its
pointers. A send pushes a functor bound to `this`, and so does a shutdown behind its
compare-and-swap; a forceClose tests state_, stores kDisconnecting and pushes its functor or
sets its timer. -/
inductive Label (κ : Type*)
  | loop (label : TcpServer.Label)
  | endBatch
  | store (pointer : κ) (conn : Nat)
  | reset (pointer : κ)
  | queue (pointer : κ) (f : Functor)
  | shutdown (pointer : κ)
  | test (pointer : κ) (delayed : Bool)
  | force (pointer : κ) (delayed : Bool)
  | leave (pointer : κ) (delayed : Bool)

variable {κ : Type*}

/-- Some shared pointer to the connection is left. -/
def Alive (s : State κ) (i : Nat) : Prop :=
  (∃ name, s.loop.server.connections.find name = some i) ∨ (∃ p, s.pointers p = some i) ∨
    ∃ f : Functor, f.shared = true ∧ (i, f) ∈ s.loop.queued ++ s.finished

/-- The calls that user code makes in the course of a step. -/
def calls : TcpServer.Label → List UserCall
  | .newConnection _ calls => calls
  | .handleEvent answers => answers.onConnection ++ answers.onMessage
  | .runFunctor around => around.calls
  | .call call => [call]
  | .poll _ | .doPendingFunctors | .fireTimer _ _ => []

/-- Where the batch has to be gone, and whether a timer can lock its weak pointer. -/
def Prepared (s : State κ) : TcpServer.Label → Prop
  | .poll _ | .doPendingFunctors => s.finished = []
  | .fireTimer i locked => locked = true ↔ Alive s i
  | .newConnection _ _ | .handleEvent _ | .runFunctor _ | .call _ => True

/-- User code calls a connection through a pointer to it, or through the argument of the
callback for a new one. -/
def Enabled (s : State κ) : Label κ → Prop
  | .loop label => TcpServer.Enabled s.loop label ∧ Prepared s label ∧
      ∀ call ∈ calls label, Alive s call.conn ∨
        label.isNewConnection = true ∧ call.conn = s.loop.objects.length
  | .endBatch => s.loop.functors = []
  | .store p i => s.pointers p = none ∧ Alive s i
  | .queue p f => s.pointers p ≠ none ∧ f.shared = false
  | .shutdown p => s.pointers p ≠ none
  | .reset p | .test p _ => s.pointers p ≠ none ∧ s.forcing p = none
  | .force p delayed => s.pointers p ≠ none ∧ s.forcing p = some (.tested delayed)
  | .leave p delayed => s.pointers p ≠ none ∧ s.forcing p = some (.stored delayed)

/-- The functors that have run when the step is over. -/
def State.ran (s : State κ) : TcpServer.Label → List (Nat × Functor)
  | .runFunctor _ => s.finished ++ s.loop.functors.take 1
  | .newConnection _ _ | .poll _ | .handleEvent _ | .doPendingFunctors | .fireTimer _ _
  | .call _ => s.finished

/-- The compare-and-swap of shutdown. -/
def disconnecting (c : TcpConnection) : Outcome :=
  if c.state = .kConnected then ({ c with state := .kDisconnecting }, []) else (c, [])

/-- The store of forceClose, which does not look at state_ again. -/
def forced (c : TcpConnection) : Outcome := ({ c with state := .kDisconnecting }, [])

/-- What forceClose or forceCLoseWithDelay leaves for the loop. -/
def closeLater (delayed : Bool) : Effect :=
  if delayed then .runAfterForceClose else .queueInLoop .forceCLoseInLoop

/-- The test finds the connection up. -/
def State.passes (s : State κ) (i : Nat) : Bool :=
  match s.loop.objects[i]? with
  | some o => o.conn.state = .kConnected || o.conn.state = .kDisconnecting
  | none => false

section

variable [DecidableEq κ]

def State.setForcing (s : State κ) (p : κ) (forcing : Option Forcing) : State κ :=
  { s with forcing := Function.update s.forcing p forcing }

def next (s : State κ) : Label κ → Option (State κ)
  | .loop label => (TcpServer.next s.loop label).map fun loop =>
      { s with loop := loop, finished := s.ran label }
  | .endBatch => some { s with finished := [] }
  | .store p i => some { s with pointers := Function.update s.pointers p (some i) }
  | .reset p => some { s with pointers := Function.update s.pointers p none }
  | .queue p f => (s.pointers p).map fun i => { s with loop := s.loop.effect i (.queueInLoop f) }
  | .shutdown p => (s.pointers p).bind fun i =>
      (s.loop.apply i fun c => some (disconnecting c)).map fun loop => { s with loop := loop }
  | .test p delayed => (s.pointers p).map fun i =>
      if s.passes i then s.setForcing p (some (.tested delayed)) else s
  | .force p delayed => (s.pointers p).bind fun i =>
      (s.loop.apply i fun c => some (forced c)).map fun loop =>
        { s with loop := loop }.setForcing p (some (.stored delayed))
  | .leave p delayed => (s.pointers p).map fun i =>
      { s with loop := s.loop.effect i (closeLater delayed) }.setForcing p none

def machine (κ : Type*) [DecidableEq κ] : Machine (State κ) (Label κ) where
  enabled := Enabled
  step := next

end

/-- A server before its first connection; no pointer points anywhere. -/
def started (κ : Type*) (listenAddr : InetAddress) (name : Bytes)
    (writeCompleteCallback : Bool) : State κ :=
  ⟨TcpServer.started listenAddr name writeCompleteCallback, [], fun _ => none, fun _ => none⟩

/-- The last pointer of user code to a connection is not given up while a functor waits that
holds the bare address, and no store of kDisconnecting comes when the connection has been
closed since the test. The numbers of the connections fit an int. -/
def Proper (s : State κ) : Label κ → Prop
  | .force p _ => ∀ i o, s.pointers p = some i → s.loop.objects[i]? = some o →
      o.conn.state ≠ .kDisconnected
  | .reset p => ∀ i, s.pointers p = some i → (∃ q, q ≠ p ∧ s.pointers q = some i) ∨
      ∀ f : Functor, f.shared = false → (i, f) ∉ s.loop.queued
  | .loop label => s.loop.objects.length + (if label.isNewConnection then 1 else 0) < 2 ^ 31
  | .endBatch | .store _ _ | .queue _ _ | .shutdown _ | .test _ _ | .leave _ _ => True

structure Invariant (s : State κ) : Prop where
  server : TcpServer.Invariant s.loop
  bare : ∀ (i : Nat) (f : Functor), (i, f) ∈ s.loop.queued → f.shared = false →
    ∃ p, s.pointers p = some i
  removed : ∀ (i : Nat) (o : ConnectionObject), s.loop.objects[i]? = some o →
    0 < destroys o → o.conn.channel.addedToLoop = false

variable {s : State κ}

/-- A functor in the queue finds its connection alive. -/
theorem Invariant.queued_alive (inv : Invariant s) (i : Nat) (f : Functor)
    (member : (i, f) ∈ s.loop.queued) : Alive s i := by
  cases kind : f.shared with
  | false =>
      obtain ⟨p, held⟩ := inv.bare i f member kind
      exact Or.inr (Or.inl ⟨p, held⟩)
  | true => exact Or.inr (Or.inr ⟨f, kind, List.mem_append_left _ member⟩)

/-- So does the loop with a channel that poll has reported. -/
theorem Invariant.reported_alive (inv : Invariant s) (report : Nat × Revents)
    (member : report ∈ s.loop.activeChannels) : Alive s report.1 := by
  have found := List.getElem?_eq_getElem (inv.server.reports report member).1
  obtain ⟨a, settled, fits⟩ := inv.server.objects report.1 _ found
  have live := fits.reported (List.mem_map.mpr ⟨report, member, rfl⟩)
  have listed := fits.listed
  rcases settled with rfl | rfl
  · exact Or.inl ⟨_, listed⟩
  · cases live

theorem Invariant.down_of_destroyed (inv : Invariant s) (i : Nat) (o : ConnectionObject)
    (found : s.loop.objects[i]? = some o) (called : 0 < destroys o) : o.conn.Down := by
  obtain ⟨a, rfl | rfl, fits⟩ := inv.server.objects i o found
  · have none : destroys o + s.loop.destroyQueued i = 0 := fits.destroys
    omega
  · exact fits.down rfl

/-- The connection is gone: it has been closed and connectDestroyed. -/
theorem Invariant.dead (inv : Invariant s) (i : Nat) (o : ConnectionObject)
    (found : s.loop.objects[i]? = some o) (gone : ¬ Alive s i) :
    o.conn.state = .kDisconnected ∧ destroys o = 1 ∧
      o.conn.channel.addedToLoop = false := by
  obtain ⟨a, settled, fits⟩ := inv.server.objects i o found
  have listed := fits.listed
  rcases settled with rfl | rfl
  · exact absurd (Or.inl ⟨_, listed⟩) gone
  · have down := fits.down rfl
    have once : destroys o + s.loop.destroyQueued i = 1 := fits.destroys
    have none : s.loop.destroyQueued i = 0 := by
      apply List.count_eq_zero.mpr
      intro member
      exact gone (inv.queued_alive i .connectDestroyed member)
    have one : destroys o = 1 := by omega
    exact ⟨down.1, one, inv.removed i o found (by omega)⟩

/-- Whoever takes part in a step of the loop is alive or new. -/
theorem Invariant.acting_alive (inv : Invariant s) (label : TcpServer.Label)
    (enabled : Enabled s (.loop label)) (i : Nat) (acts : acting s.loop label i) :
    Alive s i ∨ label.isNewConnection = true ∧ i = s.loop.objects.length := by
  obtain ⟨_, prepared, called⟩ := enabled
  cases label with
  | newConnection sockfd calls =>
      rcases acts with new | ⟨call, member, rfl⟩
      · exact Or.inr ⟨rfl, new⟩
      · exact called call member
  | poll active => cases acts
  | handleEvent answers =>
      rcases acts with ⟨revents, head⟩ | ⟨call, member, rfl⟩
      · exact Or.inl (inv.reported_alive (i, revents) (List.mem_of_mem_head? head))
      · exact called call member
  | doPendingFunctors => cases acts
  | runFunctor around =>
      rcases acts with ⟨f, head⟩ | ⟨call, member, rfl⟩
      · exact Or.inl (inv.queued_alive i f
          (List.mem_append_left _ (List.mem_of_mem_head? head)))
      · exact called call member
  | fireTimer j locked =>
      obtain ⟨isLocked, rfl⟩ := acts
      exact Or.inl (prepared.mp isLocked)
  | call call =>
      cases acts
      exact called call List.mem_cons_self

/-- A step of the server, as far as it matters for the pointers. -/
theorem Invariant.framed (inv : Invariant s) {loop : TcpServer.State} {acts : Nat → Prop}
    (server : TcpServer.Invariant loop) (framed : Framed acts s.loop loop)
    (finished : List (Nat × Functor)) :
    Invariant { s with loop := loop, finished := finished } where
  server := server
  bare := by
    intro i f member kind
    rcases framed.queue (i, f) member with old | ⟨_, shared⟩
    · exact inv.bare i f old kind
    · rw [kind] at shared
      cases shared
  removed := by
    intro i p there called
    rcases framed.objects i p there with ⟨o, found, tamed⟩ | off | none
    · rw [tamed.destroys] at called
      have down := inv.down_of_destroyed i o found called
      have off := inv.removed i o found called
      by_contra added
      rw [(tamed.down down).2 (by simpa using added)] at off
      cases off
    · exact off
    · omega

/-- Nobody comes back to life: the step gives pointers to living connections only. -/
def NoRevival (s t : State κ) : Prop :=
  ∀ i, Alive t i → Alive s i ∨ s.loop.objects.length ≤ i

/-- Pointers in the server and its queue behind a step that acts for living or new
connections. -/
theorem noRevival_of_framed {loop : TcpServer.State} {acts : Nat → Prop}
    (framed : Framed acts s.loop loop) (finished : List (Nat × Functor))
    (kept : ∀ q ∈ finished, q ∈ s.loop.queued ++ s.finished)
    (alive : ∀ i, acts i → Alive s i ∨ s.loop.objects.length ≤ i) :
    NoRevival s { s with loop := loop, finished := finished } := by
  intro i living
  rcases living with ⟨name, held⟩ | held | ⟨f, shared, member⟩
  · rcases framed.listed name i held with old | new
    · exact Or.inl (Or.inl ⟨name, old⟩)
    · exact alive i new
  · exact Or.inl (Or.inr (Or.inl held))
  · rcases List.mem_append.mp member with queued | done
    · rcases framed.queue (i, f) queued with old | ⟨acting, _⟩
      · exact Or.inl (Or.inr (Or.inr ⟨f, shared, List.mem_append_left _ old⟩))
      · exact alive i acting
    · exact Or.inl (Or.inr (Or.inr ⟨f, shared, kept (i, f) done⟩))

theorem State.mem_ran (s : State κ) (label : TcpServer.Label) (q : Nat × Functor)
    (member : q ∈ s.ran label) : q ∈ s.loop.queued ++ s.finished := by
  cases label with
  | runFunctor around =>
      rcases List.mem_append.mp member with old | new
      · exact List.mem_append_right _ old
      · exact List.mem_append_left _ (List.mem_append_left _ (List.mem_of_mem_take new))
  | newConnection | poll | handleEvent | doPendingFunctors | fireTimer | call =>
      exact List.mem_append_right _ member

theorem disconnecting_gentle (c : TcpConnection) : Gentle c (disconnecting c) := by
  unfold disconnecting
  split
  · rename_i connected
    exact TcpConnection.closing_gentle c [] (Or.inl connected) (by simp)
  · exact Gentle.refl c

theorem disconnecting_tame (c : TcpConnection) : Tame c (disconnecting c) := by
  unfold disconnecting
  split
  · rename_i connected
    exact Tame.of_not_down (fun _ member => by cases member)
      (TcpConnection.Up.not_down (Or.inl connected))
  · exact Tame.refl c

/-- The store, as it is on a connection that is up. -/
def forcedUp (c : TcpConnection) : Outcome :=
  if c.state = .kConnected ∨ c.state = .kDisconnecting then forced c else (c, [])

theorem forcedUp_gentle (c : TcpConnection) : Gentle c (forcedUp c) := by
  unfold forcedUp
  split
  · rename_i up
    exact TcpConnection.closing_gentle c [] up (by simp)
  · exact Gentle.refl c

theorem forcedUp_tame (c : TcpConnection) : Tame c (forcedUp c) := by
  unfold forcedUp
  split
  · rename_i up
    exact Tame.of_not_down (fun _ member => by cases member) (TcpConnection.Up.not_down up)
  · exact Tame.refl c

/-- A connection that is not down is up: connectEstablished has run. -/
theorem Invariant.up_of_open (inv : Invariant s) (i : Nat) (o : ConnectionObject)
    (found : s.loop.objects[i]? = some o) (open_ : o.conn.state ≠ .kDisconnected) :
    o.conn.state = .kConnected ∨ o.conn.state = .kDisconnecting := by
  obtain ⟨a, rfl | rfl, fits⟩ := inv.server.objects i o found
  · exact (fits.live rfl).1
  · exact absurd (fits.down rfl).1 open_

theorem apply_congr {s : TcpServer.State} {i : Nat} {f g : TcpConnection → Option Outcome}
    (same : ∀ o, s.objects[i]? = some o → f o.conn = g o.conn) : s.apply i f = s.apply i g := by
  unfold State.apply
  split
  · rfl
  · rename_i o found
    rw [same o found]

/-- A call that a foreign thread makes through a pointer. -/
theorem Invariant.applied (inv : Invariant s) (p : κ) (i : Nat) (held : s.pointers p = some i)
    (op : TcpConnection → Outcome) (gentle : ∀ c, Gentle c (op c)) (tame : ∀ c, Tame c (op c)) :
    ∃ loop, (s.loop.apply i fun c => some (op c)) = some loop ∧
      Invariant { s with loop := loop } ∧ NoRevival s { s with loop := loop } := by
  obtain ⟨loop, applied, touched⟩ :=
    apply_touched s.loop i (fun c => some (op c)) fun c => ⟨_, rfl, gentle c⟩
  have within : Within (· = i) s.loop loop :=
    apply_within i _ rfl (fun c r same => Option.some.inj same ▸ tame c) applied
  have framed := within.framed touched.size
  refine ⟨loop, applied, inv.framed (Holds.touched inv.server touched) framed s.finished, ?_⟩
  refine noRevival_of_framed framed s.finished (fun _ member => List.mem_append_right _ member) ?_
  rintro j rfl
  exact Or.inl (Or.inr (Or.inl ⟨p, held⟩))

/-- A functor bound to `this` is pushed. -/
theorem Invariant.pushed (inv : Invariant s) (p : κ) (i : Nat) (held : s.pointers p = some i)
    (f : Functor) (bare : f.shared = false) :
    Invariant { s with loop := s.loop.effect i (.queueInLoop f) } ∧
      NoRevival s { s with loop := s.loop.effect i (.queueInLoop f) } := by
  have other : Effect.queueInLoop f ≠ .queueInLoop .connectDestroyed := by
    intro same
    cases same
    cases bare
  have touched := effect_touched s.loop i (.queueInLoop f) other
  have queued (q : Nat × Functor) (member : q ∈ (s.loop.effect i (.queueInLoop f)).queued) :
      q ∈ s.loop.queued ∨ q = (i, f) := by
    rw [State.queued, State.effect, ← List.append_assoc] at member
    rcases List.mem_append.mp member with old | new
    · exact Or.inl old
    · exact Or.inr (List.mem_singleton.mp new)
  constructor
  · refine ⟨Holds.touched inv.server touched, ?_, inv.removed⟩
    intro j g member kind
    rcases queued (j, g) member with old | new
    · exact inv.bare j g old kind
    · cases new
      exact ⟨p, held⟩
  · intro j living
    left
    rcases living with listed | pointed | ⟨g, shared, member⟩
    · exact Or.inl listed
    · exact Or.inr (Or.inl pointed)
    · rcases List.mem_append.mp member with inQueue | done
      · rcases queued (j, g) inQueue with old | new
        · exact Or.inr (Or.inr ⟨g, shared, List.mem_append_left _ old⟩)
        · cases new
          rw [bare] at shared
          cases shared
      · exact Or.inr (Or.inr ⟨g, shared, List.mem_append_right _ done⟩)

/-- The functor of a forceClose is pushed, or its timer set. -/
theorem Invariant.left (inv : Invariant s) (p : κ) (i : Nat) (held : s.pointers p = some i)
    (delayed : Bool) : Invariant { s with loop := s.loop.effect i (closeLater delayed) } ∧
      NoRevival s { s with loop := s.loop.effect i (closeLater delayed) } := by
  have other : closeLater delayed ≠ .queueInLoop .connectDestroyed := by
    cases delayed
    · exact fun same => by cases same
    · exact fun same => by cases same
  have shared : ∀ f, closeLater delayed = .queueInLoop f → f.shared = true := by
    intro f same
    cases delayed
    · cases same
      rfl
    · cases same
  have touched := effect_touched s.loop i (closeLater delayed) other
  have within : TcpServer.Within (· = i) s.loop (s.loop.effect i (closeLater delayed)) :=
    effect_within s.loop i (closeLater delayed) rfl shared
  have framed := within.framed touched.size
  refine ⟨inv.framed (Holds.touched inv.server touched) framed s.finished, ?_⟩
  refine noRevival_of_framed framed s.finished (fun _ member => List.mem_append_right _ member) ?_
  rintro j rfl
  exact Or.inl (Or.inr (Or.inl ⟨p, held⟩))

/-- Releasing pointers kills at most. -/
theorem NoRevival.of_fewer {t : State κ} (loop : t.loop = s.loop)
    (finished : ∀ q ∈ t.finished, q ∈ s.finished)
    (pointers : ∀ p i, t.pointers p = some i → Alive s i) : NoRevival s t := by
  intro i living
  left
  rcases living with listed | ⟨p, held⟩ | ⟨f, shared, member⟩
  · rw [loop] at listed
    exact Or.inl listed
  · exact pointers p i held
  · rw [loop] at member
    rcases List.mem_append.mp member with queued | done
    · exact Or.inr (Or.inr ⟨f, shared, List.mem_append_left _ queued⟩)
    · exact Or.inr (Or.inr ⟨f, shared, List.mem_append_right _ (finished (i, f) done)⟩)

/-- The calls that are under way do not matter to the loop. -/
theorem Invariant.withForcing (inv : Invariant s) (forcing : κ → Option Forcing) :
    Invariant { s with forcing := forcing } := ⟨inv.server, inv.bare, inv.removed⟩

theorem started_invariant (listenAddr : InetAddress) (name : Bytes)
    (writeCompleteCallback : Bool) :
    Invariant (started κ listenAddr name writeCompleteCallback) where
  server := TcpServer.started_invariant listenAddr name writeCompleteCallback
  bare := fun _ _ member => by cases member
  removed := fun _ _ found => by cases found

variable [DecidableEq κ] {label : Label κ}

/-- The caller keeps the pointer that a waiting functor needs. -/
theorem Invariant.reset (inv : Invariant s) (p : κ) (proper : Proper s (.reset p)) :
    Invariant { s with pointers := Function.update s.pointers p none } := by
  refine ⟨inv.server, ?_, inv.removed⟩
  intro i f member kind
  obtain ⟨q, held⟩ := inv.bare i f member kind
  by_cases same : q = p
  · subst same
    rcases proper i held with ⟨r, other, also⟩ | none
    · exact ⟨r, (Function.update_of_ne other _ _).trans also⟩
    · exact absurd member (none f kind)
  · exact ⟨q, (Function.update_of_ne same _ _).trans held⟩

theorem Invariant.store (inv : Invariant s) (p : κ) (i : Nat) (empty : s.pointers p = none) :
    Invariant { s with pointers := Function.update s.pointers p (some i) } := by
  refine ⟨inv.server, ?_, inv.removed⟩
  intro j f member kind
  obtain ⟨q, held⟩ := inv.bare j f member kind
  have other : q ≠ p := by
    rintro rfl
    rw [empty] at held
    cases held
  exact ⟨q, (Function.update_of_ne other _ _).trans held⟩

theorem next_spec (inv : Invariant s) (enabled : Enabled s label) (proper : Proper s label) :
    ∃ t, next s label = some t ∧ Invariant t ∧ NoRevival s t := by
  cases label with
  | loop label =>
      obtain ⟨loop, moved, server, framed⟩ := next_framed inv.server label enabled.1 proper
      refine ⟨_, by rw [next, moved, Option.map_some], inv.framed server framed _, ?_⟩
      refine noRevival_of_framed framed _ (s.mem_ran label) ?_
      intro i acts
      rcases inv.acting_alive label enabled i acts with alive | ⟨_, new⟩
      · exact Or.inl alive
      · exact Or.inr (Nat.le_of_eq new.symm)
  | endBatch =>
      refine ⟨_, rfl, ⟨inv.server, inv.bare, inv.removed⟩, NoRevival.of_fewer rfl ?_ ?_⟩
      · intro q member
        cases member
      · intro p i held
        exact Or.inr (Or.inl ⟨p, held⟩)
  | store p i =>
      refine ⟨_, rfl, inv.store p i enabled.1, NoRevival.of_fewer rfl (fun _ => id) ?_⟩
      intro q j held
      by_cases same : q = p
      · subst same
        cases (Function.update_self q (some i) s.pointers).symm.trans held
        exact enabled.2
      · exact Or.inr (Or.inl ⟨q, (Function.update_of_ne same _ _).symm.trans held⟩)
  | reset p =>
      refine ⟨_, rfl, inv.reset p proper, NoRevival.of_fewer rfl (fun _ => id) ?_⟩
      intro q j held
      by_cases same : q = p
      · subst same
        cases (Function.update_self q none s.pointers).symm.trans held
      · exact Or.inr (Or.inl ⟨q, (Function.update_of_ne same _ _).symm.trans held⟩)
  | queue p f =>
      obtain ⟨i, held⟩ := Option.ne_none_iff_exists'.mp enabled.1
      obtain ⟨kept, silent⟩ := inv.pushed p i held f enabled.2
      exact ⟨_, by rw [next, held, Option.map_some], kept, silent⟩
  | shutdown p =>
      obtain ⟨i, held⟩ := Option.ne_none_iff_exists'.mp enabled
      obtain ⟨loop, applied, kept, silent⟩ :=
        inv.applied p i held disconnecting disconnecting_gentle disconnecting_tame
      exact ⟨_, by rw [next, held, Option.bind_some, applied, Option.map_some], kept, silent⟩
  | test p delayed =>
      obtain ⟨i, held⟩ := Option.ne_none_iff_exists'.mp enabled.1
      refine ⟨_, by rw [next, held, Option.map_some], ?_⟩
      split
      · exact ⟨inv.withForcing _, fun j living => Or.inl living⟩
      · exact ⟨inv, fun j living => Or.inl living⟩
  | force p delayed =>
      obtain ⟨i, held⟩ := Option.ne_none_iff_exists'.mp enabled.1
      obtain ⟨loop, applied, kept, silent⟩ :=
        inv.applied p i held forcedUp forcedUp_gentle forcedUp_tame
      have stored : (s.loop.apply i fun c => some (forced c)) = some loop := by
        refine (apply_congr fun o found => ?_).trans applied
        rw [forcedUp, if_pos (inv.up_of_open i o found (proper i o held found))]
      refine ⟨{ s with loop := loop }.setForcing p (some (.stored delayed)), ?_,
        kept.withForcing _, silent⟩
      rw [next, held, Option.bind_some, stored, Option.map_some]
  | leave p delayed =>
      obtain ⟨i, held⟩ := Option.ne_none_iff_exists'.mp enabled.1
      obtain ⟨kept, silent⟩ := inv.left p i held delayed
      refine ⟨{ s with loop := s.loop.effect i (closeLater delayed) }.setForcing p none, ?_,
        kept.withForcing _, silent⟩
      rw [next, held, Option.map_some]

theorem next_preserves : ((machine κ).restrict Proper).Preserves Invariant := by
  intro s label t inv enabled moved
  obtain ⟨u, stepped, kept, _⟩ := next_spec inv enabled.1 enabled.2
  obtain rfl : u = t := Option.some.inj (stepped.symm.trans moved)
  exact kept

instance (s : State Unit) (i : Nat) : Decidable (Alive s i) :=
  decidable_of_iff
    ((∃ entry ∈ s.loop.server.connections.entries, entry.2 = i) ∨ s.pointers () = some i ∨
      ∃ q ∈ s.loop.queued ++ s.finished, q.1 = i ∧ q.2.shared = true)
    (by
      unfold Alive
      refine or_congr ⟨?_, ?_⟩ (or_congr ⟨fun held => ⟨(), held⟩, fun ⟨_, held⟩ => held⟩ ⟨?_, ?_⟩)
      · rintro ⟨⟨name, j⟩, member, rfl⟩
        exact ⟨name, (OrderedMap.find_eq_some_iff _ _ _).mpr member⟩
      · rintro ⟨name, held⟩
        exact ⟨(name, i), (OrderedMap.find_eq_some_iff _ _ _).mp held, rfl⟩
      · rintro ⟨⟨j, f⟩, member, rfl, shared⟩
        exact ⟨f, shared, member⟩
      · rintro ⟨f, shared, member⟩
        exact ⟨(i, f), member, rfl, shared⟩)

instance (s : State Unit) : (label : TcpServer.Label) → Decidable (Prepared s label)
  | .poll _ | .doPendingFunctors => inferInstanceAs (Decidable (s.finished = []))
  | .fireTimer i locked => inferInstanceAs (Decidable (locked = true ↔ Alive s i))
  | .newConnection _ _ | .handleEvent _ | .runFunctor _ | .call _ =>
      inferInstanceAs (Decidable True)

instance (s : State Unit) : (label : Label Unit) → Decidable (Enabled s label)
  | .loop label =>
      have : Decidable (TcpServer.Enabled s.loop label) :=
        inferInstanceAs (Decidable (TcpServer.machine.enabled s.loop label))
      inferInstanceAs (Decidable (TcpServer.Enabled s.loop label ∧ Prepared s label ∧
        ∀ call ∈ calls label, Alive s call.conn ∨
          label.isNewConnection = true ∧ call.conn = s.loop.objects.length))
  | .endBatch => inferInstanceAs (Decidable (s.loop.functors = []))
  | .store p i => inferInstanceAs (Decidable (s.pointers p = none ∧ Alive s i))
  | .queue p f => inferInstanceAs (Decidable (s.pointers p ≠ none ∧ f.shared = false))
  | .shutdown p => inferInstanceAs (Decidable (s.pointers p ≠ none))
  | .reset p | .test p _ =>
      inferInstanceAs (Decidable (s.pointers p ≠ none ∧ s.forcing p = none))
  | .force p delayed => inferInstanceAs (Decidable (s.pointers p ≠ none ∧
      s.forcing p = some (.tested delayed)))
  | .leave p delayed => inferInstanceAs (Decidable (s.pointers p ≠ none ∧
      s.forcing p = some (.stored delayed)))

instance (s : State Unit) : (label : Label Unit) → Decidable (Proper s label)
  | .reset _ => decidable_of_iff
      (∀ q ∈ s.loop.queued, q.2.shared = false → s.pointers () ≠ some q.1) (by
        constructor
        · intro none i held
          refine Or.inr fun f bare member => ?_
          exact none (i, f) member bare held
        · rintro proper ⟨i, f⟩ member bare held
          rcases proper i held with ⟨q, other, _⟩ | none
          · exact other rfl
          · exact none f bare member)
  | .loop label => inferInstanceAs (Decidable
      (s.loop.objects.length + (if label.isNewConnection then 1 else 0) < 2 ^ 31))
  | .force p _ => decidable_of_iff (∀ i ∈ s.pointers p, ∀ o ∈ s.loop.objects[i]?,
      o.conn.state ≠ .kDisconnected)
      ⟨fun all i o held found => all i held o found, fun all i held o found => all i o held found⟩
  | .endBatch | .store _ _ | .queue _ _ | .shutdown _ | .test _ _ | .leave _ _ =>
      inferInstanceAs (Decidable True)

instance (s : State Unit) (label : Label Unit) :
    Decidable (((machine Unit).restrict Proper).enabled s label) :=
  inferInstanceAs (Decidable (Enabled s label ∧ Proper s label))

instance (s : State Unit) (label : Label Unit) : Decidable ((machine Unit).enabled s label) :=
  inferInstanceAs (Decidable (Enabled s label))

/-- The thread has found state_ to be kConnected, and pushes its functor when the connection
has been closed and destroyed; then it gives its pointer up. -/
def hasty : List (Label Unit) :=
  [.loop (.newConnection 5 [.forceClose 0]), .store () 0, .loop (.poll []),
    .loop .doPendingFunctors, .loop (.runFunctor plain), .endBatch, .loop (.poll []),
    .loop .doPendingFunctors, .loop (.runFunctor plain), .endBatch,
    .queue () (.sendInLoop (.string (ascii "hi"))), .reset ()]

/-- The functor is left with the address of a connection that is gone. -/
example : ∃ s, (machine Unit).Run (started Unit ⟨(127, 0, 0, 1), 80⟩ (ascii "tundra") false)
      hasty s ∧
    (decide (Alive s 0), s.loop.queued) = (false, [(0, .sendInLoop (.string (ascii "hi")))]) :=
  (machine Unit).exists_run_of_play _ hasty (fun s => (decide (Alive s 0), s.loop.queued)) _
    (by decide +kernel)

/-- The second forceClose has made its test when the functor of the first one closes the
connection, and stores kDisconnecting then. -/
def late : List (Label Unit) :=
  [.loop (.newConnection 5 []), .store () 0, .test () false, .force () false, .leave () false,
    .test () false, .loop (.poll []), .loop .doPendingFunctors, .loop (.runFunctor plain),
    .endBatch, .force () false, .leave () false, .loop (.poll []), .loop .doPendingFunctors,
    .loop (.runFunctor plain)]

/-- Behind connectDestroyed its functor fails an assertion. -/
example : ((machine Unit).play (started Unit ⟨(127, 0, 0, 1), 80⟩ (ascii "tundra") false)
    late).map (fun s => (next s (.loop (.runFunctor plain))).isSome) = some false := by
  decide +kernel

end Tundra.ConnectionLifetime
