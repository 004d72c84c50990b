import Tundra.Net.ConnectionCalls

set_option autoImplicit false

/- What the public calls do to a connection that is down, before and after connectDestroyed
has taken its channel out of the Poller. They are made on the loop's thread or on another one:
there send, startRead and stopRead leave a functor for the loop, and forceClose and
forceCLoseWithDelay store kDisconnecting some time after their test of state_. -/
namespace Tundra.ClosedConnection

open Library Poller ChannelTeardown ConnectionCalls

variable {κ : Type*}

/-- The functors that calls on other threads leave in the loop's queue and that touch the
channel. -/
inductive Task
  | sendInLoop (pending : Bool)
  | startReadInLoop
  | stopReadInLoop
deriving DecidableEq

def Task.inner : Task → ConnectionCall
  | .sendInLoop pending => .sendInLoop pending
  | .startReadInLoop => .startReadInLoop
  | .stopReadInLoop => .stopReadInLoop

/-- What a call on another thread does behind its test of state_. -/
inductive Rest
  | queueInLoop (task : Task)
  | storeDisconnecting
deriving DecidableEq

/-- The rest of a call, unless its test and its store are one compare-and-swap. The functors of
shutdown and forceClose do not touch the channel, or are those of handleClose. -/
def rest : PublicCall → Option Rest
  | .send pending => some (.queueInLoop (.sendInLoop pending))
  | .startRead => some (.queueInLoop .startReadInLoop)
  | .stopRead => some (.queueInLoop .stopReadInLoop)
  | .forceClose | .forceCLoseWithDelay => some .storeDisconnecting
  | .shutdown => none

/-- `midway` are the calls on other threads that are past their test, `functors` the queue of
the loop. -/
structure State (κ : Type*) where
  owners : Owners κ
  midway : List (κ × Rest)
  functors : List (κ × Task)

inductive Label (κ : Type*)
  | loop (label : ChannelTeardown.Label κ)
  | user (c : κ) (call : PublicCall)
  | foreign (c : κ) (call : PublicCall)
  | finish (k : Nat)
  | runFunctor

/-- The connection that a step of a call is about. -/
def State.subject (s : State κ) : Label κ → Option κ
  | .loop _ => none
  | .user c _ | .foreign c _ => some c
  | .finish k => (s.midway[k]?).map Prod.fst
  | .runFunctor => s.functors.head?.map Prod.fst

/-- No startReadInLoop and no store of kDisconnecting on a connection that is down, and after
connectDestroyed no stopReadInLoop unless reading_ is false already. -/
def Fits (conn : Connection) : ConnectionCall → Prop
  | .startReadInLoop | .storeDisconnecting => conn.state ≠ .kDisconnected
  | .stopReadInLoop => conn.state = .kDisconnected → conn.removed = true → conn.reading = false
  | _ => True

/-- The function of a connection that a step of a call runs, when the call passes its test. -/
def State.runs (s : State κ) : Label κ → Option (κ × ConnectionCall)
  | .user c call => some (c, call.inner)
  | .finish k => match s.midway[k]? with
      | some (c, .storeDisconnecting) => some (c, .storeDisconnecting)
      | _ => none
  | .runFunctor => s.functors.head?.map fun task => (task.1, task.2.inner)
  | .loop _ | .foreign _ _ => none

def Careful (s : State κ) (label : Label κ) : Prop :=
  ∀ c call conn, s.runs label = some (c, call) → s.owners.owner c = .connection conn →
    Fits conn call

section Model

variable [DecidableEq κ]

def State.call (s : State κ) (c : κ) (call : ConnectionCall) : Option (State κ) :=
  (s.owners.next (.call c call)).map fun owners => { s with owners := owners }

/-- A call on another thread up to its test. -/
def State.tests (s : State κ) (c : κ) (conn : Connection) (call : PublicCall) :
    Option (State κ) :=
  if call.Passes conn then
    match rest call with
    | some rest => some { s with midway := s.midway ++ [(c, rest)] }
    | none => s.call c call.inner
  else some s

def next (s : State κ) : Label κ → Option (State κ)
  | .loop label => (s.owners.next label).map fun owners => { s with owners := owners }
  | .user c call =>
      match s.owners.owner c with
      | .connection conn => if call.Passes conn then s.call c call.inner else some s
      | _ => none
  | .foreign c call =>
      match s.owners.owner c with
      | .connection conn => s.tests c conn call
      | _ => none
  | .finish k =>
      match s.midway[k]? with
      | some (c, .queueInLoop task) =>
          some { s with midway := s.midway.eraseIdx k, functors := s.functors ++ [(c, task)] }
      | some (c, .storeDisconnecting) =>
          { s with midway := s.midway.eraseIdx k }.call c .storeDisconnecting
      | none => none
  | .runFunctor =>
      match s.functors with
      | (c, task) :: queue => { s with functors := queue }.call c task.inner
      | [] => none

def Enabled (fds : κ → Int) (s : State κ) : Label κ → Prop
  | .loop label => LoopStep label ∧ s.owners.Enabled fds label
  | .user c _ | .foreign c _ =>
      ∃ conn, s.owners.owner c = .connection conn ∧ conn.state ≠ .kConnecting
  | .finish k => k < s.midway.length
  | .runFunctor => s.functors ≠ []

def machine (fds : κ → Int) : Machine (State κ) (Label κ) where
  enabled := Enabled fds
  step := next

def start (fds : κ → Int) : State κ := ⟨ChannelTeardown.start fds, [], []⟩

/-- The connection stays down, its interest set empty, and the tables of the Poller are as
before. -/
def Harmless (s : State κ) (c : κ) (label : Label κ) : Prop :=
  ∃ t, next s label = some t ∧
    (∃ conn, t.owners.owner c = .connection conn ∧ conn.state = .kDisconnected) ∧
    (t.owners.poller.channel c).isNoneEvent = true ∧
    t.owners.poller.pollfds = s.owners.poller.pollfds ∧
    t.owners.poller.channels = s.owners.poller.channels

/-- connectDestroyed takes out this channel and nothing else. -/
def Removes (s : State κ) (c : κ) : Prop :=
  ∃ t, next s (.loop (.call c .connectDestroyed)) = some t ∧
    (t.owners.poller.channel c).isNoneEvent = true ∧
    t.owners.poller.channels =
      s.owners.poller.channels.erase (s.owners.poller.channel c).fd ∧
    ¬ t.owners.poller.Registered c ∧ Frame s.owners.poller c t.owners.poller

end Model

/-- The pollfd that handleClose has left for the channel. -/
def parkedSlot (fd : Int) : Pollfd := ⟨ignored fd, Events.kNoneEvent, 0⟩

/-- A closed connection that is still in the Poller has left its pollfd there. -/
def Left (p : Poller κ) (c : κ) : Owner → Prop
  | .connection conn => conn.closed = true → conn.removed = false →
      p.slot c = some (parkedSlot (p.channel c).fd)
  | _ => True

/-- Somebody holds the connection, or has held it. -/
def Given : Owner → Prop
  | .unborn => False
  | .connection conn => conn.state ≠ .kConnecting
  | .wakeup | .timerQueue | .acceptor _ | .gone => True

/-- What the owners of the channels keep. -/
structure Kept (fds : κ → Int) (o : Owners κ) : Prop where
  owners : ChannelTeardown.Invariant fds o
  left : ∀ c, Left o.poller c (o.owner c)

structure Invariant (fds : κ → Int) (s : State κ) : Prop where
  kept : Kept fds s.owners
  midway : ∀ entry ∈ s.midway, Given (s.owners.owner entry.1)
  functors : ∀ task ∈ s.functors, Given (s.owners.owner task.1)

theorem Left.frame {p q : Poller κ} {c d : κ} {owner : Owner} (left : Left p d owner)
    (status : Status p d owner) (frame : Frame p c q) (different : d ≠ c) : Left q d owner := by
  cases status with
  | closed quiet =>
      intro closed stays
      rw [frame.slot d different quiet.here, frame.channel d different]
      exact left closed stays
  | connecting | up => exact fun closed => by cases closed
  | removed => exact fun _ stays => by cases stays
  | unborn | wakeup | timerQueue | silent | listening | gone => exact trivial

/-- A connection that is down is still in the Poller, without interest, or has left it. -/
theorem status_down {p : Poller κ} {c : κ} {conn : Connection}
    (status : Status p c (.connection conn)) (down : conn.state = .kDisconnected) :
    (Quiet p c ∧ conn.closed = true ∧ conn.removed = false) ∨
      (Detached p c ∧ conn.removed = true) := by
  cases status with
  | connecting => cases down
  | up state_ => rcases state_ with up | up <;> cases up.symm.trans down
  | closed quiet => exact .inl ⟨quiet, rfl, rfl⟩
  | removed detached => exact .inr ⟨detached, rfl⟩

variable [DecidableEq κ]

/-- A change of the interest set that leaves none. -/
theorem update_left (p q : Poller κ) (c : κ) (changed : Channel)
    (same : changed.fd = (p.channel c).fd) (none : changed.events = Events.kNoneEvent)
    (inv : p.Consistent) (here : p.Registered c) (done : p.update c changed = some q) :
    q.slot c = some (parkedSlot (q.channel c).fd) := by
  obtain ⟨_, _, _, channel, fd, slot, negated⟩ := update_spec p c changed same inv q done
  rw [slot, none, channel, negated here ((Channel.isNoneEvent_iff _).mpr none)]
  rfl

/-- handleClose and connectDestroyed leave their mark, every other function leaves the marks
alone. -/
theorem perform_marks (p q : Poller κ) (c : κ) (conn after : Connection) (call : ConnectionCall)
    (done : conn.perform p c call = some (q, after)) :
    after.closed = (conn.closed || decide (call = .handleClose)) ∧
      after.removed = (conn.removed || decide (call = .connectDestroyed)) := by
  cases call with
  | sendInLoop | handleWrite | startReadInLoop | stopReadInLoop =>
      rcases Connection.perform_interest done with ⟨_, rfl⟩ | ⟨_, rfl⟩
      · simp
      · simp
  | disconnecting | storeDisconnecting =>
      cases done
      simp
  | connectEstablished | handleClose =>
      obtain ⟨_, _, same⟩ := Option.map_eq_some_iff.mp done
      cases same
      simp
  | connectDestroyed =>
      obtain ⟨_, closed, removed⟩ := Connection.perform_destroyed done
      simp [closed, removed]

/-- The pollfd of a closed connection written again. -/
theorem update_again (p q : Poller κ) (c : κ) (changed : Channel)
    (same : changed.fd = (p.channel c).fd) (none : changed.events = Events.kNoneEvent)
    (inv : p.Consistent) (here : p.Registered c)
    (slot : p.slot c = some (parkedSlot (p.channel c).fd)) (done : p.update c changed = some q) :
    q.pollfds = p.pollfds ∧ q.channels = p.channels := by
  have placed := inv.indices c here
  rcases update_cases p c changed same q done with
    ⟨new, _⟩ | ⟨_, _, pollfds, channels, _⟩
  · omega
  · refine ⟨?_, channels⟩
    obtain ⟨inside, there⟩ := List.getElem?_eq_some_iff.mp slot
    rw [pollfds, if_pos ((Channel.isNoneEvent_iff _).mpr none), none, same]
    show p.pollfds.set _ (parkedSlot _) = p.pollfds
    rw [← there, List.set_getElem_self]

/-- stopRead on a connection that is down and still in the Poller: nothing happens, or the
pollfd is written again as it stands. -/
theorem stopRead_left (p q : Poller κ) (c : κ) (conn after : Connection) (inv : p.Consistent)
    (quiet : Quiet p c) (slot : p.slot c = some (parkedSlot (p.channel c).fd))
    (done : conn.perform p c .stopReadInLoop = some (q, after)) :
    q.slot c = some (parkedSlot (q.channel c).fd) ∧ (q.channel c).isNoneEvent = true ∧
      q.pollfds = p.pollfds ∧ q.channels = p.channels := by
  rcases Connection.perform_interest done with ⟨applied, _⟩ | ⟨rfl, _⟩
  · have idle := disableReading_of_idle _ quiet.idle
    have none := (Channel.isNoneEvent_iff _).mp idle
    obtain ⟨_, _, _, channel, _⟩ :=
      update_spec p c (p.channel c).toChannel.disableReading rfl inv q applied
    refine ⟨?_, by rw [channel]; exact idle, ?_⟩
    · exact update_left p q c (p.channel c).toChannel.disableReading rfl none inv quiet.here applied
    · exact update_again p q c (p.channel c).toChannel.disableReading rfl none inv quiet.here slot
        applied
  · exact ⟨slot, quiet.idle, rfl, rfl⟩

theorem perform_left (p q : Poller κ) (c : κ) (conn after : Connection) (call : ConnectionCall)
    (inv : p.Consistent) (status : Status p c (.connection conn)) (allowed : conn.allowed call)
    (left : Left p c (.connection conn))
    (proper : call = .startReadInLoop ∨ call = .storeDisconnecting →
      conn.state ≠ .kDisconnected)
    (done : conn.perform p c call = some (q, after)) : Left q c (.connection after) := by
  intro closed stays
  obtain ⟨close, remove⟩ := perform_marks p q c conn after call done
  rw [close] at closed
  rw [remove] at stays
  cases status with
  | connecting fresh =>
      have closes : call = .handleClose := by simpa using closed
      subst closes
      rcases allowed with up | up <;> cases up
  | up state_ here =>
      have closes : call = .handleClose := by simpa using closed
      subst closes
      obtain ⟨r, applied, same⟩ := Option.map_eq_some_iff.mp done
      cases same
      exact update_left p q c (p.channel c).toChannel.disableAll rfl rfl inv here applied
  | closed quiet =>
      cases call with
      | stopReadInLoop => exact (stopRead_left p q c _ after inv quiet (left rfl rfl) done).1
      | handleWrite drained =>
          simp only [Connection.perform, isWriting_of_idle _ quiet.idle, Bool.false_eq_true,
            false_and, ↓reduceIte] at done
          cases done
          exact left rfl rfl
      | sendInLoop pending =>
          cases done
          exact left rfl rfl
      | startReadInLoop => exact absurd rfl (proper (.inl rfl))
      | storeDisconnecting => exact absurd rfl (proper (.inr rfl))
      | connectDestroyed => simp at stays
      | connectEstablished => cases allowed
      | disconnecting | handleClose => rcases allowed with up | up <;> cases up
  | removed detached => simp at stays

section Steps

variable {fds : κ → Int} {o p : Owners κ}

theorem Kept.become (kept : Kept fds o) {c : κ} {owner : Owner} {q : Poller κ}
    (invariant : ChannelTeardown.Invariant fds (o.become c owner q)) (frame : Frame o.poller c q)
    (left : Left q c owner) : Kept fds (o.become c owner q) := by
  refine ⟨invariant, fun d => ?_⟩
  show Left q d (Function.update o.owner c owner d)
  by_cases same : d = c
  · subst same
    rw [Function.update_self]
    exact left
  · rw [Function.update_of_ne same]
    exact (kept.left d).frame (kept.owners.status d) frame same

theorem Fits.proper {conn : Connection} {call : ConnectionCall} (fits : Fits conn call)
    (read : call = .startReadInLoop ∨ call = .storeDisconnecting) :
    conn.state ≠ .kDisconnected := by
  rcases read with rfl | rfl
  · exact fits
  · exact fits

theorem perform_kept (kept : Kept fds o) {c : κ} {conn after : Connection} {q : Poller κ}
    {call : ConnectionCall} (owner : o.owner c = .connection conn) (allowed : conn.allowed call)
    (fits : Fits conn call) (done : conn.perform o.poller c call = some (q, after)) :
    Kept fds (o.become c (.connection after) q) := by
  have status := kept.owners.status c
  have left := kept.left c
  rw [owner] at status left
  have consistent := kept.owners.consistent
  have moved := perform_status _ c conn call consistent status allowed (fits.proper) q
    after done
  refine kept.become (ChannelTeardown.become_invariant fds o kept.owners c _ q moved
    fun _ => .inl (by rw [owner]; rfl)) moved.frame ?_
  exact perform_left _ q c conn after call consistent status allowed left (fits.proper)
    done

/-- The steps of the loop are proper for the owners. -/
theorem loop_proper (kept : Kept fds o) (label : ChannelTeardown.Label κ) (own : LoopStep label)
    (moved : o.next label = some p) : Proper o label := by
  cases label with
  | destroy c => exact destroy_proper fds o p c kept.owners moved
  | call c call =>
      cases call with
      | startReadInLoop | storeDisconnecting => exact own.elim
      | _ => trivial
  | construct | listen => trivial

theorem loop_kept (kept : Kept fds o) (label : ChannelTeardown.Label κ) (own : LoopStep label)
    (enabled : o.Enabled fds label) (moved : o.next label = some p) : Kept fds p := by
  have proper := loop_proper kept label own moved
  have invariant := ChannelTeardown.next_invariant fds o p label kept.owners enabled proper moved
  obtain ⟨c, owner, q, rfl, consistent, frame, action⟩ :=
    owners_acts fds o p label kept.owners.consistent enabled moved
  refine kept.become invariant frame ?_
  cases action with
  | created unborn => exact fun closed => by cases closed
  | plain other born quiet =>
      cases owner with
      | connection conn => exact absurd rfl (other conn)
      | _ => trivial
  | @performed conn after call before allowed done =>
      have status := kept.owners.status c
      have left := kept.left c
      rw [before] at status left
      refine perform_left _ q c conn after call kept.owners.consistent status allowed left ?_ done
      rintro (rfl | rfl)
      · exact own.elim
      · exact own.elim

/-- A connection that is established does not go back. -/
theorem perform_given {conn after : Connection} {q r : Poller κ} {c : κ} {call : ConnectionCall}
    (given : conn.state ≠ .kConnecting) (done : conn.perform q c call = some (r, after)) :
    after.state ≠ .kConnecting := by
  cases call with
  | sendInLoop | handleWrite | startReadInLoop | stopReadInLoop =>
      rcases Connection.perform_interest done with ⟨_, rfl⟩ | ⟨_, rfl⟩
      · exact given
      · exact given
  | disconnecting | storeDisconnecting =>
      cases done
      simp
  | connectEstablished | handleClose =>
      obtain ⟨_, _, same⟩ := Option.map_eq_some_iff.mp done
      cases same
      simp
  | connectDestroyed =>
      simp only [Connection.perform] at done
      split at done
      · obtain ⟨_, _, rest⟩ := Option.bind_eq_some_iff.mp done
        obtain ⟨_, _, same⟩ := Option.map_eq_some_iff.mp rest
        cases same
        simp
      · obtain ⟨_, _, same⟩ := Option.map_eq_some_iff.mp done
        cases same
        exact given

theorem become_given {c d : κ} {owner : Owner} {q : Poller κ} (given : Given (o.owner d))
    (after : d = c → Given owner) : Given ((o.become c owner q).owner d) := by
  show Given (Function.update o.owner c owner d)
  by_cases same : d = c
  · rw [same, Function.update_self]
    exact after same
  · rw [Function.update_of_ne same]
    exact given

/-- A connection that somebody holds stays given. -/
theorem loop_given (kept : Kept fds o) (label : ChannelTeardown.Label κ)
    (enabled : o.Enabled fds label) (moved : o.next label = some p) {d : κ}
    (given : Given (o.owner d)) : Given (p.owner d) := by
  obtain ⟨c, owner, q, rfl, _, _, action⟩ :=
    owners_acts fds o p label kept.owners.consistent enabled moved
  refine become_given given ?_
  rintro rfl
  cases action with
  | created unborn =>
      rw [unborn] at given
      exact given.elim
  | plain other born quiet =>
      cases owner with
      | connection conn => exact absurd rfl (other conn)
      | unborn => exact absurd rfl born
      | _ => trivial
  | performed before allowed done =>
      rw [before] at given
      exact perform_given given done

end Steps

section Runs

variable {fds : κ → Int} {s t : State κ}

theorem call_cases {c : κ} {call : ConnectionCall} (moved : s.call c call = some t) :
    ∃ conn q after, s.owners.owner c = .connection conn ∧
      conn.perform s.owners.poller c call = some (q, after) ∧
      t = { s with owners := s.owners.become c (.connection after) q } := by
  obtain ⟨owners, stepped, rfl⟩ := Option.map_eq_some_iff.mp moved
  dsimp only [Owners.next] at stepped
  split at stepped
  · rename_i conn owner
    obtain ⟨⟨q, after⟩, done, rfl⟩ := Option.map_eq_some_iff.mp stepped
    exact ⟨conn, q, after, owner, done, rfl⟩
  · cases stepped

theorem call_invariant (inv : Invariant fds s) {c : κ} {call : ConnectionCall}
    (allowed : ∀ conn, s.owners.owner c = .connection conn →
      conn.allowed call ∧ conn.state ≠ .kConnecting ∧ Fits conn call)
    (moved : s.call c call = some t) : Invariant fds t := by
  obtain ⟨conn, q, after, owner, done, rfl⟩ := call_cases moved
  obtain ⟨permitted, established, fits⟩ := allowed conn owner
  have given : Given (.connection after) := perform_given established done
  refine ⟨perform_kept inv.kept owner permitted fits done, ?_, ?_⟩
  · exact fun entry member => become_given (inv.midway entry member) fun _ => given
  · exact fun task member => become_given (inv.functors task member) fun _ => given

omit [DecidableEq κ] in
/-- A step that changes only the lists. -/
theorem Invariant.lists (inv : Invariant fds s) (owners : t.owners = s.owners)
    (midway : ∀ entry ∈ t.midway, Given (s.owners.owner entry.1))
    (functors : ∀ task ∈ t.functors, Given (s.owners.owner task.1)) : Invariant fds t := by
  refine ⟨?_, ?_, ?_⟩
  · rw [owners]
    exact inv.kept
  · rw [owners]
    exact midway
  · rw [owners]
    exact functors

omit [DecidableEq κ] in
/-- The functions that a connection allows once it is established. -/
theorem allowed_of_given {c : κ} {conn : Connection} {call : ConnectionCall}
    (given : Given (s.owners.owner c)) (owner : s.owners.owner c = .connection conn)
    (late : (∃ task : Task, call = task.inner) ∨ call = .storeDisconnecting) :
    conn.allowed call ∧ conn.state ≠ .kConnecting := by
  rw [owner] at given
  refine ⟨?_, given⟩
  rcases late with ⟨task, rfl⟩ | rfl
  · cases task with
    | sendInLoop | startReadInLoop | stopReadInLoop => exact given
  · exact given

theorem tests_invariant (inv : Invariant fds s) {c : κ} {conn : Connection} {call : PublicCall}
    (owner : s.owners.owner c = .connection conn) (given : conn.state ≠ .kConnecting)
    (moved : s.tests c conn call = some t) : Invariant fds t := by
  unfold State.tests at moved
  split at moved
  · rename_i passes
    split at moved
    · cases moved
      refine inv.lists rfl ?_ inv.functors
      intro entry member
      rcases List.mem_append.mp member with old | new
      · exact inv.midway entry old
      · rw [List.mem_singleton.mp new]
        show Given (s.owners.owner c)
        rw [owner]
        exact given
    · rename_i atomic
      refine call_invariant inv ?_ moved
      intro conn' owner'
      cases owner.symm.trans owner'
      refine ⟨passes.allowed given, given, ?_⟩
      cases call with
      | shutdown => trivial
      | send | forceClose | forceCLoseWithDelay | startRead | stopRead => cases atomic
  · cases moved
    exact inv

theorem next_preserves (fds : κ → Int) :
    ((machine fds).restrict Careful).Preserves (Invariant fds) := by
  intro s label t inv enabled moved
  obtain ⟨enabled, careful⟩ := enabled
  cases label with
  | loop label =>
      obtain ⟨owners, stepped, rfl⟩ := Option.map_eq_some_iff.mp moved
      have given {d : κ} := loop_given inv.kept label enabled.2 stepped (d := d)
      exact ⟨loop_kept inv.kept label enabled.1 enabled.2 stepped,
        fun entry member => given (inv.midway entry member),
        fun task member => given (inv.functors task member)⟩
  | user c call =>
      obtain ⟨conn, owner, given⟩ := enabled
      simp only [machine, Machine.restrict, next, owner] at moved
      split at moved
      · rename_i passes
        refine call_invariant inv ?_ moved
        intro conn' owner'
        cases owner.symm.trans owner'
        exact ⟨passes.allowed given, given, careful c _ conn rfl owner⟩
      · cases moved
        exact inv
  | foreign c call =>
      obtain ⟨conn, owner, given⟩ := enabled
      simp only [machine, Machine.restrict, next, owner] at moved
      exact tests_invariant inv owner given moved
  | finish k =>
      have rests : ∀ entry ∈ s.midway.eraseIdx k, Given (s.owners.owner entry.1) :=
        fun entry member => inv.midway entry (List.mem_of_mem_eraseIdx member)
      dsimp only [machine, Machine.restrict, next] at moved
      split at moved
      · rename_i c task there
        cases moved
        refine inv.lists rfl rests ?_
        intro entry member
        rcases List.mem_append.mp member with old | new
        · exact inv.functors entry old
        · rw [List.mem_singleton.mp new]
          exact inv.midway _ (List.mem_of_getElem? there)
      · rename_i c there
        have given := inv.midway _ (List.mem_of_getElem? there)
        have shorter : Invariant fds { s with midway := s.midway.eraseIdx k } :=
          inv.lists rfl rests inv.functors
        refine call_invariant shorter ?_ moved
        intro conn owner
        obtain ⟨allowed, established⟩ := allowed_of_given given owner (.inr rfl)
        refine ⟨allowed, established, careful c _ conn ?_ owner⟩
        simp only [State.runs, there]
      · cases moved
  | runFunctor =>
      dsimp only [machine, Machine.restrict, next] at moved
      split at moved
      · rename_i c task queue head
        have given := inv.functors (c, task) (by rw [head]; exact List.mem_cons_self)
        have shorter : Invariant fds { s with functors := queue } :=
          inv.lists rfl inv.midway fun entry member =>
            inv.functors entry (by rw [head]; exact List.mem_cons_of_mem _ member)
        refine call_invariant shorter ?_ moved
        intro conn owner
        obtain ⟨allowed, established⟩ := allowed_of_given given owner (.inl ⟨task, rfl⟩)
        refine ⟨allowed, established, careful c _ conn ?_ owner⟩
        simp only [State.runs, head, List.head?_cons, Option.map_some]
      · cases moved

omit [DecidableEq κ] in
theorem start_invariant (fds : κ → Int) (nonneg : ∀ c, 0 ≤ fds c) :
    Invariant fds (start fds) :=
  ⟨⟨ChannelTeardown.start_invariant fds nonneg, fun _ => trivial⟩, List.forall_mem_nil _,
    List.forall_mem_nil _⟩

/-- The call leaves the connection down, without interest, and the tables as they are. -/
def Quietly (p : Poller κ) (c : κ) (conn : Connection) (call : ConnectionCall) : Prop :=
  ∃ q after, conn.perform p c call = some (q, after) ∧ after.state = .kDisconnected ∧
    (q.channel c).isNoneEvent = true ∧ q.pollfds = p.pollfds ∧ q.channels = p.channels

/-- startReadInLoop on a connection that is down turns reading on, or fails in the Poller. -/
theorem startRead_harmful (p q : Poller κ) (c : κ) (conn after : Connection)
    (inv : p.Consistent) (idle : (p.channel c).isNoneEvent = true)
    (done : conn.perform p c .startReadInLoop = some (q, after)) :
    ¬ (q.channel c).isNoneEvent = true := by
  have events := (Channel.isNoneEvent_iff _).mp idle
  have off : (p.channel c).isReading = false := by rw [Channel.isReading, events]; rfl
  simp only [Connection.perform, off, or_true, ↓reduceIte] at done
  obtain ⟨r, applied, same⟩ := Option.map_eq_some_iff.mp done
  cases same
  obtain ⟨_, _, _, channel, _⟩ :=
    update_spec p c (p.channel c).toChannel.enableReading rfl inv q applied
  rw [channel, Channel.isNoneEvent, Channel.enableReading, Channel.update, events]
  show ¬ (Events.mk true false == Events.kNoneEvent) = true
  decide

theorem stopRead_state {p q : Poller κ} {c : κ} {conn after : Connection}
    (done : conn.perform p c .stopReadInLoop = some (q, after)) : after.state = conn.state := by
  rcases Connection.perform_interest done with ⟨_, rfl⟩ | ⟨_, rfl⟩
  · rfl
  · rfl

/-- stopReadInLoop finds the channel of a closed connection in the Poller. -/
theorem stopRead_quiet (p : Poller κ) (c : κ) (conn : Connection) (inv : p.Consistent)
    (quiet : Quiet p c) (slot : p.slot c = some (parkedSlot (p.channel c).fd))
    (down : conn.state = .kDisconnected) : Quietly p c conn .stopReadInLoop := by
  obtain ⟨q, after, done⟩ : ∃ q after, conn.perform p c .stopReadInLoop = some (q, after) := by
    simp only [Connection.perform]
    split
    · obtain ⟨q, applied⟩ := interest_total p c .disableReading (by simp) inv (.inl quiet.here)
      exact ⟨q, _, by rw [applied, Option.map_some]⟩
    · exact ⟨p, conn, rfl⟩
  exact ⟨q, after, done, (stopRead_state done).trans down,
    (stopRead_left p q c conn after inv quiet slot done).2⟩

/-- stopReadInLoop on a connection that has left the Poller is stopped by reading_ alone. -/
theorem stopRead_detached (p : Poller κ) (c : κ) (conn : Connection) (detached : Detached p c)
    (down : conn.state = .kDisconnected) :
    Quietly p c conn .stopReadInLoop ↔ conn.reading = false := by
  have off : (p.channel c).isReading = false := by
    rw [Channel.isReading, (Channel.isNoneEvent_iff _).mp detached.idle]
    rfl
  constructor
  · rintro ⟨q, after, done, _⟩
    by_contra on
    have reads : conn.reading = true := (Bool.not_eq_false _).mp on
    simp only [Connection.perform, reads, true_or, ↓reduceIte] at done
    obtain ⟨r, applied, _⟩ := Option.map_eq_some_iff.mp done
    exact detached.no_interest .disableReading (by simp) r applied
  · intro silent
    refine ⟨p, conn, ?_, down, detached.idle, rfl, rfl⟩
    simp only [Connection.perform, silent, off, Bool.false_eq_true, or_self, ↓reduceIte]

/-- On a connection that is down the late functions are quiet exactly when they fit. -/
theorem quietly_iff {c : κ} {conn : Connection} {call : ConnectionCall} (inv : Invariant fds s)
    (owner : s.owners.owner c = .connection conn) (down : conn.state = .kDisconnected)
    (late : (∃ task : Task, call = task.inner) ∨ call = .storeDisconnecting) :
    Quietly s.owners.poller c conn call ↔ Fits conn call := by
  have consistent := inv.kept.owners.consistent
  have status := inv.kept.owners.status c
  have left := inv.kept.left c
  rw [owner] at status left
  have place := status_down status down
  have idle : (s.owners.poller.channel c).isNoneEvent = true := by
    rcases place with ⟨quiet, _⟩ | ⟨detached, _⟩
    · exact quiet.idle
    · exact detached.idle
  rcases late with ⟨task, rfl⟩ | rfl
  · cases task with
    | sendInLoop pending =>
        refine iff_of_true ⟨s.owners.poller, conn, ?_, down, idle, rfl, rfl⟩ trivial
        simp only [Task.inner, Connection.perform, down, ne_eq, not_true_eq_false, false_and,
          ↓reduceIte]
    | startReadInLoop =>
        refine iff_of_false ?_ fun fits => fits down
        rintro ⟨q, after, done, _, quiet, _⟩
        exact startRead_harmful _ q c conn after consistent idle done quiet
    | stopReadInLoop =>
        rcases place with ⟨quiet, closed, stays⟩ | ⟨detached, removed⟩
        · refine iff_of_true (stopRead_quiet _ c _ consistent quiet (left closed stays) down) ?_
          intro _ removed
          rw [stays] at removed
          cases removed
        · refine (stopRead_detached _ c _ detached down).trans ?_
          exact ⟨fun silent _ _ => silent, fun silent => silent down removed⟩
  · refine iff_of_false ?_ fun fits => fits down
    rintro ⟨q, after, done, stays, _⟩
    cases done
    cases stays

omit [DecidableEq κ] in
theorem careful_iff {label : Label κ} {c : κ} {conn : Connection} {call : ConnectionCall}
    (runs : s.runs label = some (c, call)) (owner : s.owners.owner c = .connection conn) :
    Careful s label ↔ Fits conn call := by
  constructor
  · exact fun careful => careful c call conn runs owner
  · intro fits d other conn' runs' owner'
    cases runs.symm.trans runs'
    cases owner.symm.trans owner'
    exact fits

omit [DecidableEq κ] in
theorem careful_of_idle {label : Label κ} (idle : s.runs label = none) : Careful s label := by
  intro d other conn' runs'
  cases idle.symm.trans runs'

theorem harmless_call {u : State κ} {label : Label κ} {c : κ} {conn : Connection}
    {call : ConnectionCall} (owner : s.owners.owner c = .connection conn)
    (same : u.owners = s.owners) (moved : next s label = u.call c call) :
    Harmless s c label ↔ Quietly s.owners.poller c conn call := by
  constructor
  · rintro ⟨t, stepped, ⟨conn', after, down⟩, quiet⟩
    obtain ⟨before, q, last, owned, done, rfl⟩ := call_cases (moved.symm.trans stepped)
    rw [same] at owned done
    cases owner.symm.trans owned
    have self : (u.owners.become c (.connection last) q).owner c = .connection last :=
      Function.update_self ..
    obtain rfl : last = conn' := Owner.connection.inj (self.symm.trans after)
    exact ⟨q, last, done, down, quiet⟩
  · rintro ⟨q, after, done, down, quiet⟩
    refine ⟨{ u with owners := s.owners.become c (.connection after) q }, ?_,
      ⟨after, Function.update_self .., down⟩, quiet⟩
    rw [moved, State.call, same]
    simp only [Owners.next, owner, done, Option.map_some]

theorem harmless_of_stays {label : Label κ} {c : κ} {conn : Connection}
    (owner : s.owners.owner c = .connection conn) (down : conn.state = .kDisconnected)
    (idle : (s.owners.poller.channel c).isNoneEvent = true) (moved : next s label = some t)
    (same : t.owners = s.owners) : Harmless s c label := by
  refine ⟨t, moved, ⟨conn, ?_, down⟩, ?_, ?_, ?_⟩
  · rw [same]
    exact owner
  · rw [same]
    exact idle
  · rw [same]
  · rw [same]

theorem connectDestroyed_removes (c : κ) (conn : Connection)
    (owner : s.owners.owner c = .connection conn) (down : conn.state = .kDisconnected)
    (inv : s.owners.poller.Consistent) (quiet : Quiet s.owners.poller c) : Removes s c := by
  obtain ⟨q, removed, _, frame, detached, _⟩ := remove_detached s.owners.poller c inv quiet
  obtain ⟨_, _, channels, _⟩ := remove_cases s.owners.poller c q removed
  refine ⟨{ s with owners := s.owners.become c (.connection { conn with removed := true }) q }, ?_,
    detached.idle, channels, detached.absent, frame⟩
  simp only [next, Owners.next, owner, Connection.perform, down, reduceCtorEq, ↓reduceIte, removed,
    Option.map_some]

/-- A call by the user on the loop's thread. -/
theorem user_harmless_iff {c : κ} {conn : Connection} (inv : Invariant fds s)
    (owner : s.owners.owner c = .connection conn) (down : conn.state = .kDisconnected)
    (idle : (s.owners.poller.channel c).isNoneEvent = true) (call : PublicCall) :
    Harmless s c (.user c call) ↔ Careful s (.user c call) := by
  have runs : s.runs (.user c call) = some (c, call.inner) := rfl
  rw [careful_iff runs owner]
  by_cases passes : call.Passes conn
  · have moved : next s (.user c call) = s.call c call.inner := by
      simp only [next, owner, passes, ↓reduceIte]
    rw [harmless_call owner rfl moved]
    refine quietly_iff inv owner down (.inl ?_)
    cases call with
    | startRead => exact ⟨.startReadInLoop, rfl⟩
    | stopRead => exact ⟨.stopReadInLoop, rfl⟩
    | send | shutdown | forceClose | forceCLoseWithDelay =>
        exact absurd passes (not_passes_of_down conn _ down (by simp))
  · have moved : next s (.user c call) = some s := by
      simp only [next, owner, passes, ↓reduceIte]
    refine iff_of_true (harmless_of_stays owner down idle moved rfl) ?_
    cases call with
    | startRead | stopRead => exact absurd trivial passes
    | send | shutdown | forceClose | forceCLoseWithDelay => trivial

/-- The test that a call on another thread makes. -/
theorem foreign_harmless {c : κ} {conn : Connection}
    (owner : s.owners.owner c = .connection conn) (down : conn.state = .kDisconnected)
    (idle : (s.owners.poller.channel c).isNoneEvent = true) (call : PublicCall) :
    Harmless s c (.foreign c call) := by
  by_cases passes : call.Passes conn
  · have moved (left : Rest) (some : rest call = some left) : next s (.foreign c call) =
        .some { s with midway := s.midway ++ [(c, left)] } := by
      simp only [next, owner, State.tests, passes, ↓reduceIte, some]
    cases call with
    | startRead | stopRead => exact harmless_of_stays owner down idle (moved _ rfl) rfl
    | send | shutdown | forceClose | forceCLoseWithDelay =>
        exact absurd passes (not_passes_of_down conn _ down (by simp))
  · refine harmless_of_stays owner down idle ?_ rfl
    simp only [next, owner, State.tests, passes, ↓reduceIte]

/-- What is left of a call on another thread, and the functors of such calls. -/
theorem late_harmless_iff {c : κ} {conn : Connection} (inv : Invariant fds s)
    (owner : s.owners.owner c = .connection conn) (down : conn.state = .kDisconnected)
    (idle : (s.owners.poller.channel c).isNoneEvent = true) {label : Label κ}
    (about : s.subject label = some c) (late : label = .runFunctor ∨ ∃ k, label = .finish k) :
    Harmless s c label ↔ Careful s label := by
  rcases late with rfl | ⟨k, rfl⟩
  · cases head : s.functors with
    | nil => simp only [State.subject, head, List.head?_nil, Option.map_none, reduceCtorEq] at about
    | cons entry queue =>
        simp only [State.subject, head, List.head?_cons, Option.map_some,
          Option.some.injEq] at about
        subst about
        have runs : s.runs .runFunctor = some (entry.1, entry.2.inner) := by
          simp only [State.runs, head, List.head?_cons, Option.map_some]
        have moved : next s .runFunctor =
            { s with functors := queue }.call entry.1 entry.2.inner := by
          simp only [next, head]
        rw [careful_iff runs owner,
          harmless_call (u := { s with functors := queue }) owner rfl moved]
        exact quietly_iff inv owner down (.inl ⟨entry.2, rfl⟩)
  · obtain ⟨⟨d, rest⟩, there, rfl⟩ := Option.map_eq_some_iff.mp about
    cases rest with
    | queueInLoop task =>
        refine iff_of_true (harmless_of_stays (t := { s with
          midway := s.midway.eraseIdx k, functors := s.functors ++ [(d, task)] })
          owner down idle ?_ rfl) (careful_of_idle ?_)
        · simp only [next, there]
        · simp only [State.runs, there]
    | storeDisconnecting =>
        have runs : s.runs (.finish k) = some (d, .storeDisconnecting) := by
          simp only [State.runs, there]
        have moved : next s (.finish k) =
            { s with midway := s.midway.eraseIdx k }.call d .storeDisconnecting := by
          simp only [next, there]
        rw [careful_iff runs owner,
          harmless_call (u := { s with midway := s.midway.eraseIdx k }) owner rfl moved]
        exact quietly_iff inv owner down (.inr rfl)

/-- A closed connection stays out of the Poller. In every run whose calls on connections that
are down are careful ones, such a connection has an empty interest set, connectDestroyed takes
out its channel and nothing else, and a step of a public call is harmless exactly when it is
careful. -/
theorem closed_connection_harmless_iff (fds : κ → Int) (nonneg : ∀ c, 0 ≤ fds c)
    (labels : List (Label κ)) (run : ((machine fds).restrict Careful).Run (start fds) labels s)
    (c : κ) (conn : Connection) (owner : s.owners.owner c = .connection conn)
    (down : conn.state = .kDisconnected) :
    (s.owners.poller.channel c).isNoneEvent = true ∧
      (∀ label, s.subject label = some c → (Harmless s c label ↔ Careful s label)) ∧
      (conn.removed = false → Removes s c) := by
  have inv := run.invariant (next_preserves fds) (start_invariant fds nonneg)
  have status := inv.kept.owners.status c
  rw [owner] at status
  have place := status_down status down
  have idle : (s.owners.poller.channel c).isNoneEvent = true := by
    rcases place with ⟨quiet, _⟩ | ⟨detached, _⟩
    · exact quiet.idle
    · exact detached.idle
  refine ⟨idle, ?_, ?_⟩
  · intro label about
    cases label with
    | loop label => cases about
    | user d call =>
        cases about
        exact user_harmless_iff inv owner down idle call
    | foreign d call =>
        cases about
        exact iff_of_true (foreign_harmless owner down idle call) (careful_of_idle rfl)
    | finish k => exact late_harmless_iff inv owner down idle about (.inr ⟨k, rfl⟩)
    | runFunctor => exact late_harmless_iff inv owner down idle about (.inl rfl)
  · intro stays
    rcases place with ⟨quiet, _⟩ | ⟨_, removed⟩
    · exact connectDestroyed_removes c conn owner down inv.kept.owners.consistent quiet
    · rw [stays] at removed
      cases removed

/-- A connection after its handleClose. -/
def closing : List (Label Nat) :=
  [.loop (.construct 3 .connection), .loop (.call 3 .connectEstablished),
    .loop (.call 3 .handleClose)]

/-- A stopRead of another thread whose functor stands behind connectDestroyed. -/
example : (List.foldlM next (start Int.ofNat) (closing ++
    [Label.foreign 3 .stopRead, .finish 0, .loop (.call 3 .connectDestroyed)])).map
      (fun s => (next s .runFunctor).isSome) = some false := rfl

/-- Calls before and after connectDestroyed that are careful, on the loop's thread and on
another one. -/
theorem closed_connection_careful :
    ∃ s, ((machine Int.ofNat).restrict Careful).Run (start Int.ofNat)
        (closing ++ [.foreign 3 .stopRead, .finish 0, .runFunctor,
          .loop (.call 3 .connectDestroyed), .foreign 3 .stopRead, .finish 0]) s ∧
      (s.owners.poller.channel 3).isNoneEvent = true ∧ Harmless s 3 .runFunctor ∧
      Harmless s 3 (.user 3 .stopRead) := by
  have given (s : State Nat) (owner : s.owners.owner 3 = .connection ⟨.kDisconnected, true, true,
      false⟩) (functors : s.functors = [(3, .stopReadInLoop)]) : Careful s .runFunctor := by
    have queued : s.runs .runFunctor = some (3, .stopReadInLoop) := by
      simp only [State.runs, functors, List.head?_cons, Option.map_some, Task.inner]
    have stays : Fits ⟨.kDisconnected, true, true, false⟩ .stopReadInLoop :=
      fun _ removed => by cases removed
    exact (careful_iff queued owner).mpr stays
  obtain ⟨s, run, owner, functors⟩ : ∃ s, ((machine Int.ofNat).restrict Careful).Run
      (start Int.ofNat) (closing ++ [.foreign 3 .stopRead, .finish 0, .runFunctor,
        .loop (.call 3 .connectDestroyed), .foreign 3 .stopRead, .finish 0]) s ∧
      s.owners.owner 3 = .connection ⟨.kDisconnected, false, true, true⟩ ∧
      s.functors = [(3, .stopReadInLoop)] := by
    refine ⟨_, .cons ⟨⟨trivial, rfl, fun d lives => by cases lives⟩, careful_of_idle rfl⟩ rfl
      (.cons ⟨⟨trivial, _, rfl, rfl⟩, careful_of_idle rfl⟩ rfl
        (.cons ⟨⟨trivial, _, rfl, .inl rfl⟩, careful_of_idle rfl⟩ rfl
          (.cons ⟨⟨_, rfl, by decide⟩, careful_of_idle rfl⟩ rfl
            (.cons ⟨Nat.zero_lt_one, careful_of_idle rfl⟩ rfl
              (.cons ⟨List.cons_ne_nil _ _, given _ rfl rfl⟩ rfl
                (.cons ⟨⟨trivial, _, rfl, rfl, rfl⟩, careful_of_idle rfl⟩ rfl
                  (.cons ⟨⟨_, rfl, by decide⟩, careful_of_idle rfl⟩ rfl
                    (.cons ⟨Nat.zero_lt_one, careful_of_idle rfl⟩ rfl .nil)))))))), rfl, rfl⟩
  have closed := closed_connection_harmless_iff Int.ofNat Int.natCast_nonneg _ run 3 _ owner rfl
  have silent : Fits ⟨.kDisconnected, false, true, true⟩ .stopReadInLoop := fun _ _ => rfl
  have queued : s.runs .runFunctor = some (3, .stopReadInLoop) := by
    simp only [State.runs, functors, List.head?_cons, Option.map_some, Task.inner]
  have subject : s.subject .runFunctor = some 3 := by
    simp only [State.subject, functors, List.head?_cons, Option.map_some]
  exact ⟨s, run, closed.1,
    (closed.2.1 .runFunctor subject).mpr ((careful_iff queued owner).mpr silent),
    (closed.2.1 (.user 3 .stopRead) rfl).mpr ((careful_iff rfl owner).mpr silent)⟩

/-- startRead between handleClose and connectDestroyed. -/
theorem closed_connection_reads_again :
    ¬ ∀ (labels : List (Label Nat)) (s : State Nat),
      (machine Int.ofNat).Run (start Int.ofNat) labels s →
      ∀ c conn label, s.owners.owner c = .connection conn → conn.state = .kDisconnected →
        s.subject label = some c → Harmless s c label := by
  intro always
  obtain ⟨s, run, owner, wakes⟩ : ∃ s, (machine Int.ofNat).Run (start Int.ofNat) closing s ∧
      s.owners.owner 3 = .connection ⟨.kDisconnected, true, true, false⟩ ∧
      (next s (.user 3 .startRead)).map (fun t => (t.owners.poller.channel 3).isNoneEvent) =
        some false :=
    ⟨_, .cons ⟨trivial, rfl, fun d lives => by cases lives⟩ rfl
      (.cons ⟨trivial, _, rfl, rfl⟩ rfl (.cons ⟨trivial, _, rfl, .inl rfl⟩ rfl .nil)), rfl, rfl⟩
  obtain ⟨t, moved, _, quiet, _⟩ := always _ s run 3 _ (.user 3 .startRead) owner rfl rfl
  rw [moved, Option.map_some, quiet] at wakes
  cases wakes

end Runs

end Tundra.ClosedConnection
