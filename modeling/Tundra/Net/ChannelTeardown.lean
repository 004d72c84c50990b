import Mathlib.Logic.Function.Basic
import Tundra.Net.PollerTable
import Tundra.Net.TcpConnection

set_option autoImplicit false

/- The owners of channels in one loop, from the construction of a channel to its
destruction: the wakeup channel of the EventLoop, the TimerQueue, the Acceptor and the
connections. All of it runs on the loop's thread, and no owner is destroyed inside its
own event handler. -/
namespace Tundra.ChannelTeardown

open Library Poller

/-- What of a TcpConnection decides about its channel, and whether handleClose and
connectDestroyed have run. -/
structure Connection where
  state : StateE
  reading : Bool
  closed : Bool
  removed : Bool
deriving DecidableEq

inductive Owner
  | unborn
  | wakeup
  | timerQueue
  | acceptor (listening : Bool)
  | connection (conn : Connection)
  | gone
deriving DecidableEq

def Owner.alive : Owner → Bool
  | .unborn | .gone => false
  | .wakeup | .timerQueue | .acceptor _ | .connection _ => true

/-- The owner may be destroyed. connectDestroyed holds a reference to its connection. -/
def Owner.destroyable : Owner → Bool
  | .wakeup | .timerQueue | .acceptor _ => true
  | .connection conn => conn.removed
  | .unborn | .gone => false

inductive Kind
  | wakeup
  | timerQueue
  | acceptor
  | connection
deriving DecidableEq

/-- The functions of a TcpConnection that touch its channel or its state. `pending` says
that sendInLoop leaves bytes unwritten, `drained` that handleWrite has written the last
one. A forceClose of another thread tests the state on its own and stores kDisconnecting
later. -/
inductive ConnectionCall
  | connectEstablished
  | sendInLoop (pending : Bool)
  | handleWrite (drained : Bool)
  | startReadInLoop
  | stopReadInLoop
  | disconnecting
  | storeDisconnecting
  | handleClose
  | connectDestroyed
deriving DecidableEq

variable {κ : Type*}

structure Owners (κ : Type*) where
  poller : Poller κ
  owner : κ → Owner

inductive Label (κ : Type*)
  | construct (c : κ) (kind : Kind)
  | listen (c : κ)
  | call (c : κ) (call : ConnectionCall)
  | destroy (c : κ)
deriving DecidableEq

section Model

variable [DecidableEq κ]

namespace Connection

def create : Connection := ⟨.kConnecting, true, false, false⟩

/-- When a call can come. The user gets hold of a connection in connectEstablished, and
connectDestroyed is queued by handleClose. -/
def allowed (conn : Connection) : ConnectionCall → Prop
  | .connectEstablished => conn.state = .kConnecting
  | .disconnecting | .handleClose => conn.state = .kConnected ∨ conn.state = .kDisconnecting
  | .connectDestroyed => conn.closed = true ∧ conn.removed = false
  | .sendInLoop _ | .handleWrite _ | .startReadInLoop | .stopReadInLoop | .storeDisconnecting =>
      conn.state ≠ .kConnecting

def perform (conn : Connection) (p : Poller κ) (c : κ) :
    ConnectionCall → Option (Poller κ × Connection)
  | .connectEstablished =>
      (p.apply c .enableReading).map fun q => (q, { conn with state := .kConnected })
  | .sendInLoop pending =>
      if conn.state ≠ .kDisconnected ∧ pending = true ∧ (p.channel c).isWriting = false then
        (p.apply c .enableWriting).map fun q => (q, conn)
      else some (p, conn)
  | .handleWrite drained =>
      if (p.channel c).isWriting = true ∧ drained = true then
        (p.apply c .disableWriting).map fun q => (q, conn)
      else some (p, conn)
  | .startReadInLoop =>
      if conn.reading = false ∨ (p.channel c).isReading = false then
        (p.apply c .enableReading).map fun q => (q, { conn with reading := true })
      else some (p, conn)
  | .stopReadInLoop =>
      if conn.reading = true ∨ (p.channel c).isReading = true then
        (p.apply c .disableReading).map fun q => (q, { conn with reading := false })
      else some (p, conn)
  | .disconnecting | .storeDisconnecting => some (p, { conn with state := .kDisconnecting })
  | .handleClose =>
      (p.apply c .disableAll).map fun q =>
        (q, { conn with state := .kDisconnected, closed := true })
  | .connectDestroyed =>
      if conn.state = .kConnected then
        (p.apply c .disableAll).bind fun q => (q.apply c .remove).map fun q =>
          (q, { conn with state := .kDisconnected, removed := true })
      else (p.apply c .remove).map fun q => (q, { conn with removed := true })

/-- A function that changes the interest set under a condition. -/
theorem perform_interest {p q : Poller κ} {c : κ} {conn kept after : Connection} {op : ChannelOp}
    {condition : Prop} [Decidable condition]
    (done : (if condition then (p.apply c op).map fun r => (r, kept) else some (p, conn)) =
      some (q, after)) :
    (p.apply c op = some q ∧ after = kept) ∨ (q = p ∧ after = conn) := by
  split at done
  · obtain ⟨r, applied, same⟩ := Option.map_eq_some_iff.mp done
    cases same
    exact .inl ⟨applied, rfl⟩
  · cases done
    exact .inr ⟨rfl, rfl⟩

/-- connectDestroyed ends with the removal of the channel, after a disableAll or without. -/
theorem perform_destroyed {p q : Poller κ} {c : κ} {conn after : Connection}
    (done : conn.perform p c .connectDestroyed = some (q, after)) :
    (∃ r, (r = p ∨ p.apply c .disableAll = some r) ∧ r.apply c .remove = some q) ∧
      after.closed = conn.closed ∧ after.removed = true := by
  simp only [perform] at done
  split at done
  · obtain ⟨r, disabled, rest⟩ := Option.bind_eq_some_iff.mp done
    obtain ⟨_, removed, same⟩ := Option.map_eq_some_iff.mp rest
    cases same
    exact ⟨⟨r, .inr disabled, removed⟩, rfl, rfl⟩
  · obtain ⟨_, removed, same⟩ := Option.map_eq_some_iff.mp done
    cases same
    exact ⟨⟨p, .inl rfl, removed⟩, rfl, rfl⟩

end Connection

/-- The destructor of a Channel. -/
def destroyChannel (p : Poller κ) (c : κ) : Option (Poller κ) :=
  if (p.channel c).addedToLoop = false ∧ p.hasChannel c = false then some p else none

/-- The destructor of the owner, with that of its channel. The one of TimerQueue does not
call remove. -/
def teardown (p : Poller κ) (c : κ) : Owner → Option (Poller κ)
  | .wakeup | .acceptor _ =>
      (p.apply c .disableAll).bind fun q => (q.apply c .remove).bind fun r => destroyChannel r c
  | .timerQueue => (p.apply c .disableAll).bind fun q => destroyChannel q c
  | .connection _ => destroyChannel p c
  | .unborn | .gone => none

namespace Owners

def become (s : Owners κ) (c : κ) (owner : Owner) (p : Poller κ) : Owners κ :=
  ⟨p, Function.update s.owner c owner⟩

def next (s : Owners κ) : Label κ → Option (Owners κ)
  | .construct c .wakeup => (s.poller.apply c .enableReading).map (s.become c .wakeup)
  | .construct c .timerQueue => (s.poller.apply c .enableReading).map (s.become c .timerQueue)
  | .construct c .acceptor => some (s.become c (.acceptor false) s.poller)
  | .construct c .connection => some (s.become c (.connection Connection.create) s.poller)
  | .listen c => (s.poller.apply c .enableReading).map (s.become c (.acceptor true))
  | .call c call =>
      match s.owner c with
      | .connection conn =>
          (conn.perform s.poller c call).map fun r => s.become c (.connection r.2) r.1
      | _ => none
  | .destroy c => (teardown s.poller c (s.owner c)).map (s.become c .gone)

/-- A descriptor is given out again only after its owner is gone. -/
def Enabled (fds : κ → Int) (s : Owners κ) : Label κ → Prop
  | .construct c _ => s.owner c = .unborn ∧ ∀ d, (s.owner d).alive = true → fds d ≠ fds c
  | .listen c => ∃ listening, s.owner c = .acceptor listening
  | .call c call => ∃ conn, s.owner c = .connection conn ∧ conn.allowed call
  | .destroy c => (s.owner c).destroyable = true

end Owners

/-- The loop before anything is constructed: `fds` are the descriptors that the owners
will get. -/
def start (fds : κ → Int) : Owners κ :=
  ⟨Poller.create fun c => PollChannel.create (fds c), fun _ => .unborn⟩

def machine (fds : κ → Int) : Machine (Owners κ) (Label κ) where
  enabled := Owners.Enabled fds
  step := Owners.next

/-- The owner is torn down as the Poller expects: it is no TimerQueue, an Acceptor has
listened, and a connection stays closed once handleClose has run. -/
def Proper (s : Owners κ) : Label κ → Prop
  | .destroy c => s.owner c ≠ .timerQueue ∧ s.owner c ≠ .acceptor false
  | .call c .startReadInLoop | .call c .storeDisconnecting =>
      ∀ conn, s.owner c = .connection conn → conn.state ≠ .kDisconnected
  | _ => True

end Model

/-- Never registered. -/
structure Fresh (p : Poller κ) (c : κ) : Prop where
  absent : ¬ p.Registered c
  unplaced : (p.channel c).index < 0

/-- Registered, but left out by poll. -/
structure Quiet (p : Poller κ) (c : κ) : Prop where
  here : p.Registered c
  idle : (p.channel c).isNoneEvent = true
  negated : ∃ pfd, p.slot c = some pfd ∧ pfd.fd = ignored (p.channel c).fd

/-- Removed after it has been registered. -/
structure Detached (p : Poller κ) (c : κ) : Prop where
  absent : ¬ p.Registered c
  placed : 0 ≤ (p.channel c).index
  idle : (p.channel c).isNoneEvent = true
  released : (p.channel c).addedToLoop = false

/-- Where the channel of an owner stands. -/
inductive Status (p : Poller κ) (c : κ) : Owner → Prop
  | unborn (fresh : Fresh p c) : Status p c .unborn
  | wakeup (here : p.Registered c) : Status p c .wakeup
  | timerQueue (here : p.Registered c) : Status p c .timerQueue
  | silent (fresh : Fresh p c) : Status p c (.acceptor false)
  | listening (here : p.Registered c) : Status p c (.acceptor true)
  | connecting {reading : Bool} (fresh : Fresh p c) :
      Status p c (.connection ⟨.kConnecting, reading, false, false⟩)
  | up {state : StateE} {reading : Bool} (state_ : state = .kConnected ∨ state = .kDisconnecting)
      (here : p.Registered c) : Status p c (.connection ⟨state, reading, false, false⟩)
  | closed {reading : Bool} (quiet : Quiet p c) :
      Status p c (.connection ⟨.kDisconnected, reading, true, false⟩)
  | removed {reading : Bool} (detached : Detached p c) :
      Status p c (.connection ⟨.kDisconnected, reading, true, true⟩)
  | gone (absent : ¬ p.Registered c) : Status p c .gone

theorem Status.frame {p q : Poller κ} {c d : κ} {owner : Owner} (status : Status p d owner)
    (frame : Frame p c q) (different : d ≠ c) : Status q d owner := by
  have registered := frame.registered d different
  have channel := frame.channel d different
  have fresh : Fresh p d → Fresh q d := fun old =>
    ⟨fun here => old.absent (registered.mp here), by
      rw [frame.index d different old.absent]
      exact old.unplaced⟩
  cases status with
  | unborn old => exact .unborn (fresh old)
  | wakeup here => exact .wakeup (registered.mpr here)
  | timerQueue here => exact .timerQueue (registered.mpr here)
  | silent old => exact .silent (fresh old)
  | listening here => exact .listening (registered.mpr here)
  | connecting old => exact .connecting (fresh old)
  | up state_ here => exact .up state_ (registered.mpr here)
  | closed quiet =>
      refine .closed ⟨registered.mpr quiet.here, ?_, ?_⟩
      · rw [channel]
        exact quiet.idle
      · rw [frame.slot d different quiet.here, channel]
        exact quiet.negated
  | removed detached =>
      refine .removed ⟨fun here => detached.absent (registered.mp here), ?_, ?_, ?_⟩
      · rw [frame.index d different detached.absent]
        exact detached.placed
      · rw [channel]
        exact detached.idle
      · rw [channel]
        exact detached.released
  | gone absent => exact .gone fun here => absent (registered.mp here)

/-- A channel that is registered belongs to an owner that is alive. -/
theorem Status.alive {p : Poller κ} {c : κ} {owner : Owner} (status : Status p c owner)
    (here : p.Registered c) : owner.alive = true := by
  cases status with
  | unborn fresh => exact absurd here fresh.absent
  | gone absent => exact absurd here absent
  | _ => rfl

structure Invariant (fds : κ → Int) (s : Owners κ) : Prop where
  consistent : s.poller.Consistent
  descriptors : ∀ c, (s.poller.channel c).fd = fds c
  status : ∀ c, Status s.poller c (s.owner c)
  unique : ∀ c d, (s.owner c).alive = true → (s.owner d).alive = true → fds c = fds d → c = d

/-- One owner has worked on its channel: the tables still agree, the other channels are as
before, and the owner has a status again. -/
structure Moved (p : Poller κ) (c : κ) (q : Poller κ) (owner : Owner) : Prop where
  consistent : q.Consistent
  frame : Frame p c q
  descriptor : (q.channel c).fd = (p.channel c).fd
  status : Status q c owner

theorem Moved.stay {p : Poller κ} {c : κ} {owner : Owner} (inv : p.Consistent)
    (status : Status p c owner) : Moved p c p owner :=
  ⟨inv, .refl p c, rfl, status⟩

variable [DecidableEq κ]

theorem Moved.interest {p q : Poller κ} {c : κ} {owner : Owner} (inv : p.Consistent)
    (op : ChannelOp) (changes : op ≠ .remove) (done : p.apply c op = some q)
    (status : q.Registered c → Status q c owner) : Moved p c q owner := by
  obtain ⟨consistent, frame, registered, fd⟩ := interest_spec p c op changes inv q done
  exact ⟨consistent, frame, fd, status registered⟩

/-- What one owner does with its channel keeps the invariant. -/
theorem become_invariant (fds : κ → Int) (s : Owners κ) (inv : Invariant fds s) (c : κ)
    (owner : Owner) (q : Poller κ) (moved : Moved s.poller c q owner)
    (unused : owner.alive = true → (s.owner c).alive = true ∨
      ∀ d, (s.owner d).alive = true → fds d ≠ fds c) :
    Invariant fds (s.become c owner q) := by
  have self : (s.become c owner q).owner c = owner := Function.update_self ..
  have others : ∀ d, d ≠ c → (s.become c owner q).owner d = s.owner d := fun d different =>
    Function.update_of_ne different ..
  -- no other owner that is alive has the same descriptor
  have single : ∀ d, d ≠ c → owner.alive = true → (s.owner d).alive = true → fds d ≠ fds c := by
    intro d different lives other same
    rcases unused lives with before | free
    · exact different (inv.unique d c other before same)
    · exact free d other same
  constructor
  · exact moved.consistent
  · intro d
    show (q.channel d).fd = fds d
    by_cases equal : d = c
    · rw [equal, moved.descriptor, inv.descriptors c]
    · rw [moved.frame.channel d equal, inv.descriptors d]
  · intro d
    by_cases equal : d = c
    · rw [equal, self]
      exact moved.status
    · rw [others d equal]
      exact (inv.status d).frame moved.frame equal
  · intro d e left right same
    by_cases first : d = c
    · by_cases second : e = c
      · rw [first, second]
      · rw [first, self] at left
        rw [others e second] at right
        rw [first] at same
        exact absurd same.symm (single e second left right)
    · by_cases second : e = c
      · rw [second, self] at right
        rw [others d first] at left
        rw [second] at same
        exact absurd same (single d first right left)
      · rw [others d first] at left
        rw [others e second] at right
        exact inv.unique d e left right same

omit [DecidableEq κ] in
/-- The descriptor of an owner whose channel is not registered is free in the Poller. -/
theorem find_none (fds : κ → Int) (s : Owners κ) (inv : Invariant fds s) (c : κ)
    (absent : ¬ s.poller.Registered c)
    (unused : (s.owner c).alive = true ∨ ∀ d, (s.owner d).alive = true → fds d ≠ fds c) :
    s.poller.channels.find (s.poller.channel c).fd = none := by
  rw [inv.descriptors c]
  by_contra some
  obtain ⟨d, found⟩ := Option.ne_none_iff_exists'.mp some
  have key := inv.consistent.keys (fds c) d found
  have here : s.poller.Registered d := by rwa [Registered, key]
  have lives := (inv.status d).alive here
  have same : fds d = fds c := by rw [← inv.descriptors d, key]
  rcases unused with before | free
  · have equal := inv.unique d c lives before same
    exact absent (equal ▸ here)
  · exact free d lives same

/-- A registered channel that is left without interest. -/
theorem update_quiet (p : Poller κ) (c : κ) (changed : Channel)
    (same : changed.fd = (p.channel c).fd) (none : changed.isNoneEvent = true)
    (inv : p.Consistent) (here : p.Registered c) (q : Poller κ)
    (done : p.update c changed = some q) : Quiet q c := by
  obtain ⟨_, _, registered, channel, fd, slot, negated⟩ := update_spec p c changed same inv q done
  refine ⟨registered, by rw [channel, none], _, slot, ?_⟩
  rw [channel]
  exact negated here none

/-- An operation other than remove fails on a channel that has been removed. -/
theorem Detached.no_interest {p : Poller κ} {c : κ} (detached : Detached p c) (op : ChannelOp)
    (changes : op ≠ .remove) (q : Poller κ) : p.apply c op ≠ some q := by
  intro done
  obtain ⟨events, same⟩ := apply_eq_update p c op changes
  rw [same] at done
  rcases update_cases p c ((p.channel c).toChannel.update events) rfl q done with
    ⟨new, _⟩ | ⟨_, here, _⟩
  · have placed := detached.placed
    omega
  · exact detached.absent here

theorem remove_detached (p : Poller κ) (c : κ) (inv : p.Consistent) (quiet : Quiet p c) :
    ∃ q, p.apply c .remove = some q ∧ q.Consistent ∧ Frame p c q ∧ Detached q c ∧
      (q.channel c).fd = (p.channel c).fd := by
  obtain ⟨pfd, slot, negated⟩ := quiet.negated
  obtain ⟨q, done⟩ := remove_total p c inv quiet.here quiet.idle pfd slot negated
  obtain ⟨⟨consistent, frame, absent, channel⟩, _⟩ := remove_spec p c inv q done
  refine ⟨q, done, consistent, frame, ⟨absent, ?_, ?_, ?_⟩, ?_⟩
  · rw [channel]
    exact inv.indices c quiet.here
  · rw [channel]
    exact quiet.idle
  · rw [channel]
    rfl
  · rw [channel]
    rfl

/-- disableAll and remove on a registered channel, and its destruction. -/
theorem teardown_registered (p : Poller κ) (c : κ) (inv : p.Consistent) (here : p.Registered c) :
    ∃ q r, p.apply c .disableAll = some q ∧ q.apply c .remove = some r ∧
      destroyChannel r c = some r ∧ r.Consistent ∧ Frame p c r ∧ ¬ r.Registered c ∧
      (r.channel c).fd = (p.channel c).fd := by
  obtain ⟨q, disabled⟩ := interest_total p c .disableAll (by simp) inv (Or.inl here)
  obtain ⟨consistent, first, _, fd⟩ := interest_spec p c .disableAll (by simp) inv q disabled
  have quiet := update_quiet p c (p.channel c).toChannel.disableAll rfl rfl inv here q disabled
  obtain ⟨r, removed, final, second, detached, fd'⟩ := remove_detached q c consistent quiet
  refine ⟨q, r, disabled, removed, ?_, final, first.trans second, detached.absent, fd'.trans fd⟩
  have unlisted : r.hasChannel c = false := decide_eq_false detached.absent
  rw [destroyChannel, if_pos ⟨detached.released, unlisted⟩]

/-- A call on a connection that is up. -/
theorem perform_up (p : Poller κ) (c : κ) (state : StateE) (reading : Bool)
    (state_ : state = .kConnected ∨ state = .kDisconnecting) (inv : p.Consistent)
    (here : p.Registered c) (call : ConnectionCall) (q : Poller κ) (after : Connection)
    (allowed : (Connection.mk state reading false false).allowed call)
    (done : (Connection.mk state reading false false).perform p c call = some (q, after)) :
    Moved p c q (.connection after) := by
  cases call with
  | connectEstablished =>
      rcases state_ with rfl | rfl
      · cases allowed
      · cases allowed
  | sendInLoop | handleWrite | startReadInLoop | stopReadInLoop =>
      rcases Connection.perform_interest done with ⟨applied, rfl⟩ | ⟨rfl, rfl⟩
      · exact .interest inv _ (by simp) applied (.up state_)
      · exact .stay inv (.up state_ here)
  | disconnecting =>
      cases done
      exact .stay inv (.up (Or.inr rfl) here)
  | storeDisconnecting =>
      cases done
      exact .stay inv (.up (Or.inr rfl) here)
  | handleClose =>
      obtain ⟨r, applied, result⟩ := Option.map_eq_some_iff.mp done
      cases result
      apply Moved.interest inv .disableAll (by simp) applied
      intro _
      exact .closed (update_quiet p c (p.channel c).toChannel.disableAll rfl rfl inv here q applied)
  | connectDestroyed => exact absurd allowed.1 (by simp)

/-- A channel without interest is not writing. -/
theorem isWriting_of_idle (channel : Channel) (idle : channel.isNoneEvent = true) :
    channel.isWriting = false := by
  rw [Channel.isNoneEvent_iff] at idle
  rw [Channel.isWriting, idle]
  rfl

theorem disableReading_of_idle (channel : Channel) (idle : channel.isNoneEvent = true) :
    channel.disableReading.isNoneEvent = true := by
  have events := (Channel.isNoneEvent_iff _).mp idle
  simp only [Channel.isNoneEvent, Channel.disableReading, Channel.update, events]
  rfl

/-- A call on a connection after handleClose: its channel stays without interest until
connectDestroyed removes it. -/
theorem perform_closed (p : Poller κ) (c : κ) (reading : Bool) (inv : p.Consistent)
    (quiet : Quiet p c) (call : ConnectionCall) (q : Poller κ) (after : Connection)
    (allowed : (Connection.mk .kDisconnected reading true false).allowed call)
    (proper : call ≠ .startReadInLoop ∧ call ≠ .storeDisconnecting)
    (done : (Connection.mk .kDisconnected reading true false).perform p c call =
      some (q, after)) : Moved p c q (.connection after) := by
  cases call with
  | connectEstablished => cases allowed
  | sendInLoop pending =>
      cases done
      exact .stay inv (.closed quiet)
  | handleWrite drained =>
      simp only [Connection.perform, isWriting_of_idle _ quiet.idle, Bool.false_eq_true,
        false_and, ↓reduceIte] at done
      cases done
      exact .stay inv (.closed quiet)
  | startReadInLoop => exact absurd rfl proper.1
  | stopReadInLoop =>
      rcases Connection.perform_interest done with ⟨applied, rfl⟩ | ⟨rfl, rfl⟩
      · apply Moved.interest inv .disableReading (by simp) applied
        intro _
        exact .closed (update_quiet p c (p.channel c).toChannel.disableReading rfl
          (disableReading_of_idle _ quiet.idle) inv quiet.here q applied)
      · exact .stay inv (.closed quiet)
  | disconnecting =>
      rcases allowed with up | up
      · cases up
      · cases up
  | storeDisconnecting => exact absurd rfl proper.2
  | handleClose =>
      rcases allowed with up | up
      · cases up
      · cases up
  | connectDestroyed =>
      obtain ⟨r, removed, consistent, frame, detached, fd⟩ := remove_detached p c inv quiet
      simp only [Connection.perform, reduceCtorEq, ↓reduceIte, removed, Option.map_some,
        Option.some.injEq, Prod.mk.injEq] at done
      obtain ⟨rfl, rfl⟩ := done
      exact ⟨consistent, frame, fd, .removed detached⟩

/-- A call on a connection after connectDestroyed, by somebody who still holds it. -/
theorem perform_removed (p : Poller κ) (c : κ) (reading : Bool) (inv : p.Consistent)
    (detached : Detached p c) (call : ConnectionCall) (q : Poller κ) (after : Connection)
    (allowed : (Connection.mk .kDisconnected reading true true).allowed call)
    (proper : call ≠ .startReadInLoop ∧ call ≠ .storeDisconnecting)
    (done : (Connection.mk .kDisconnected reading true true).perform p c call =
      some (q, after)) : Moved p c q (.connection after) := by
  cases call with
  | connectEstablished => cases allowed
  | sendInLoop pending =>
      cases done
      exact .stay inv (.removed detached)
  | handleWrite drained =>
      simp only [Connection.perform, isWriting_of_idle _ detached.idle, Bool.false_eq_true,
        false_and, ↓reduceIte] at done
      cases done
      exact .stay inv (.removed detached)
  | startReadInLoop => exact absurd rfl proper.1
  | stopReadInLoop =>
      rcases Connection.perform_interest done with ⟨applied, _⟩ | ⟨rfl, rfl⟩
      · exact absurd applied (detached.no_interest .disableReading (by simp) q)
      · exact .stay inv (.removed detached)
  | disconnecting =>
      rcases allowed with up | up
      · cases up
      · cases up
  | storeDisconnecting => exact absurd rfl proper.2
  | handleClose =>
      rcases allowed with up | up
      · cases up
      · cases up
  | connectDestroyed => exact absurd allowed.2 (by simp)

theorem perform_status (p : Poller κ) (c : κ) (conn : Connection) (call : ConnectionCall)
    (inv : p.Consistent) (status : Status p c (.connection conn)) (allowed : conn.allowed call)
    (proper : call = .startReadInLoop ∨ call = .storeDisconnecting →
      conn.state ≠ .kDisconnected)
    (q : Poller κ) (after : Connection) (done : conn.perform p c call = some (q, after)) :
    Moved p c q (.connection after) := by
  have closing : conn.state = .kDisconnected →
      call ≠ .startReadInLoop ∧ call ≠ .storeDisconnecting := fun down =>
    ⟨fun starts => proper (Or.inl starts) down, fun stores => proper (Or.inr stores) down⟩
  cases status with
  | @connecting reading fresh =>
      cases call with
      | connectEstablished =>
          obtain ⟨r, applied, result⟩ := Option.map_eq_some_iff.mp done
          cases result
          exact .interest inv .enableReading (by simp) applied (.up (Or.inl rfl))
      | disconnecting =>
          rcases allowed with up | up
          · cases up
          · cases up
      | handleClose =>
          rcases allowed with up | up
          · cases up
          · cases up
      | connectDestroyed => exact absurd allowed.1 (by simp)
      | _ => exact absurd rfl allowed
  | up state_ here => exact perform_up p c _ _ state_ inv here call q after allowed done
  | closed quiet => exact perform_closed p c _ inv quiet call q after allowed (closing rfl) done
  | removed detached =>
      exact perform_removed p c _ inv detached call q after allowed (closing rfl) done

/-- An Acceptor that has never listened: disableAll registers its channel, with the plain
descriptor, and remove expects the negated one. -/
theorem teardown_silent (p : Poller κ) (c : κ) (inv : p.Consistent) (fresh : Fresh p c)
    (free : p.channels.find (p.channel c).fd = none) (listening : Bool) :
    teardown p c (.acceptor listening) = none := by
  obtain ⟨q, disabled⟩ :=
    interest_total p c .disableAll (by simp) inv (Or.inr ⟨fresh.unplaced, free⟩)
  have negative := fresh.unplaced
  rcases update_cases p c (p.channel c).toChannel.disableAll rfl q disabled with
    ⟨_, absent, pollfds, channels, channel⟩ | ⟨placed, _⟩
  · obtain ⟨_, _, _, slot⟩ := register_spec p q c (p.channel c).toChannel.disableAll _ rfl inv
      absent pollfds channels channel
    have fails : q.apply c .remove = none := by
      by_contra some
      obtain ⟨r, removed⟩ := Option.ne_none_iff_exists'.mp some
      obtain ⟨_, ⟨pfd, there, negated⟩, _⟩ := remove_cases q c r removed
      rw [slot, Option.some.injEq] at there
      have nonneg := inv.descriptors c
      have plain : pfd.fd = (p.channel c).fd := by
        rw [← there]
        rfl
      have same : (q.channel c).fd = (p.channel c).fd := by
        rw [channel, Function.update_self]
        rfl
      rw [plain, same, ignored] at negated
      omega
    simp only [teardown, disabled, Option.bind_some, fails, Option.bind_none]
  · omega

/-- The TimerQueue leaves its channel registered. -/
theorem teardown_timerQueue (p : Poller κ) (c : κ) (inv : p.Consistent)
    (here : p.Registered c) : teardown p c .timerQueue = none := by
  obtain ⟨q, disabled⟩ := interest_total p c .disableAll (by simp) inv (Or.inl here)
  obtain ⟨_, _, registered, _⟩ := interest_spec p c .disableAll (by simp) inv q disabled
  have listed : q.hasChannel c = true := decide_eq_true registered
  simp only [teardown, disabled, Option.bind_some, destroyChannel, listed, Bool.true_eq_false,
    and_false, ↓reduceIte]

/-- The teardown of an owner that has registered its channel, or of a connection that has
been removed. -/
theorem teardown_status (p : Poller κ) (c : κ) (owner : Owner) (inv : p.Consistent)
    (status : Status p c owner) (timer : owner ≠ .timerQueue) (silent : owner ≠ .acceptor false)
    (ready : owner.destroyable = true) :
    ∃ q, teardown p c owner = some q ∧ Moved p c q .gone := by
  cases status with
  | unborn fresh => cases ready
  | timerQueue here => exact absurd rfl timer
  | silent fresh => exact absurd rfl silent
  | connecting fresh => cases ready
  | up state_ here => cases ready
  | closed quiet => cases ready
  | gone absent => cases ready
  | wakeup here =>
      obtain ⟨q, r, disabled, removed, destroyed, consistent, frame, absent, fd⟩ :=
        teardown_registered p c inv here
      refine ⟨r, ?_, consistent, frame, fd, .gone absent⟩
      simp only [teardown, disabled, Option.bind_some, removed, destroyed]
  | listening here =>
      obtain ⟨q, r, disabled, removed, destroyed, consistent, frame, absent, fd⟩ :=
        teardown_registered p c inv here
      refine ⟨r, ?_, consistent, frame, fd, .gone absent⟩
      simp only [teardown, disabled, Option.bind_some, removed, destroyed]
  | removed detached =>
      have unlisted : p.hasChannel c = false := decide_eq_false detached.absent
      refine ⟨p, ?_, .stay inv (.gone detached.absent)⟩
      simp only [teardown, destroyChannel, detached.released, unlisted, and_self, ↓reduceIte]

theorem next_invariant (fds : κ → Int) (s t : Owners κ) (label : Label κ)
    (inv : Invariant fds s) (enabled : Owners.Enabled fds s label) (proper : Proper s label)
    (moved : s.next label = some t) : Invariant fds t := by
  have consistent := inv.consistent
  cases label with
  | construct c kind =>
      obtain ⟨unborn, free⟩ := enabled
      have status := inv.status c
      rw [unborn] at status
      cases status with
      | unborn fresh =>
          cases kind with
          | wakeup =>
              obtain ⟨q, applied, rfl⟩ := Option.map_eq_some_iff.mp moved
              exact become_invariant fds s inv c .wakeup q
                (.interest consistent .enableReading (by simp) applied .wakeup)
                fun _ => Or.inr free
          | timerQueue =>
              obtain ⟨q, applied, rfl⟩ := Option.map_eq_some_iff.mp moved
              exact become_invariant fds s inv c .timerQueue q
                (.interest consistent .enableReading (by simp) applied .timerQueue)
                fun _ => Or.inr free
          | acceptor =>
              cases moved
              exact become_invariant fds s inv c (.acceptor false) s.poller
                (.stay consistent (.silent fresh)) fun _ => Or.inr free
          | connection =>
              cases moved
              exact become_invariant fds s inv c (.connection Connection.create) s.poller
                (.stay consistent (.connecting fresh)) fun _ => Or.inr free
  | listen c =>
      obtain ⟨listening, owner⟩ := enabled
      obtain ⟨q, applied, rfl⟩ := Option.map_eq_some_iff.mp moved
      exact become_invariant fds s inv c (.acceptor true) q
        (.interest consistent .enableReading (by simp) applied .listening)
        fun _ => Or.inl (by rw [owner]; rfl)
  | call c call =>
      obtain ⟨conn, owner, allowed⟩ := enabled
      simp only [Owners.next, owner] at moved
      obtain ⟨⟨q, after⟩, performed, rfl⟩ := Option.map_eq_some_iff.mp moved
      have status := inv.status c
      rw [owner] at status
      have late : call = .startReadInLoop ∨ call = .storeDisconnecting →
          conn.state ≠ .kDisconnected := by
        rintro (rfl | rfl)
        · exact proper conn owner
        · exact proper conn owner
      exact become_invariant fds s inv c (.connection after) q
        (perform_status s.poller c conn call consistent status allowed late q after performed)
        fun _ => Or.inl (by rw [owner]; rfl)
  | destroy c =>
      obtain ⟨q, torn, rfl⟩ := Option.map_eq_some_iff.mp moved
      obtain ⟨r, same, gone⟩ := teardown_status s.poller c (s.owner c) consistent (inv.status c)
        proper.1 proper.2 enabled
      rw [torn, Option.some.injEq] at same
      rw [same]
      exact become_invariant fds s inv c .gone r gone fun lives => by cases lives

omit [DecidableEq κ] in
theorem start_invariant (fds : κ → Int) (nonneg : ∀ c, 0 ≤ fds c) :
    Invariant fds (start fds) := by
  have consistent := create_consistent fds nonneg
  have fresh : ∀ c, Fresh (start fds).poller c := by
    intro c
    refine ⟨fun here => (by cases here), ?_⟩
    show (-1 : Int) < 0
    omega
  refine ⟨consistent, fun _ => rfl, fun c => .unborn (fresh c), ?_⟩
  intro c d lives
  cases lives

/-- A destructor that completes is not one of the two that cannot. -/
theorem destroy_proper (fds : κ → Int) (s t : Owners κ) (c : κ) (inv : Invariant fds s)
    (moved : s.next (.destroy c) = some t) : Proper s (.destroy c) := by
  have status := inv.status c
  obtain ⟨q, torn, _⟩ := Option.map_eq_some_iff.mp moved
  constructor
  · intro timer
    rw [timer] at status torn
    cases status with
    | timerQueue here =>
        rw [teardown_timerQueue s.poller c inv.consistent here] at torn
        cases torn
  · intro silent
    have lives : (s.owner c).alive = true := by rw [silent]; rfl
    rw [silent] at status torn
    cases status with
    | silent fresh =>
        have free := find_none fds s inv c fresh.absent (Or.inl lives)
        rw [teardown_silent s.poller c inv.consistent fresh free false] at torn
        cases torn

/-- The teardown protocol: in every run of the owners whose steps are proper, handleClose,
connectDestroyed and the destructors trip no assertion, a destructor exactly when it is not
that of a TimerQueue or of an Acceptor that has not listened, and a channel that has been
destroyed is not registered. -/
theorem channel_teardown (fds : κ → Int) (nonneg : ∀ c, 0 ≤ fds c) (labels : List (Label κ))
    (s : Owners κ) (run : ((machine fds).restrict Proper).Run (start fds) labels s) :
    (∀ c, s.owner c = .gone → s.poller.hasChannel c = false) ∧
      (∀ c, (machine fds).enabled s (.destroy c) →
        ((∃ t, s.next (.destroy c) = some t) ↔ Proper s (.destroy c))) ∧
      ∀ c call, call = .handleClose ∨ call = .connectDestroyed →
        (machine fds).enabled s (.call c call) → ∃ t, s.next (.call c call) = some t := by
  have inv : Invariant fds s := by
    apply run.invariant _ (start_invariant fds nonneg)
    intro s label t inv allowed moved
    exact next_invariant fds s t label inv allowed.1 allowed.2 moved
  refine ⟨?_, ?_, ?_⟩
  · intro c gone
    have status := inv.status c
    rw [gone] at status
    cases status with
    | gone absent => exact decide_eq_false absent
  · intro c ready
    have status := inv.status c
    constructor
    · rintro ⟨t, moved⟩
      exact destroy_proper fds s t c inv moved
    · intro proper
      obtain ⟨q, torn, _⟩ := teardown_status s.poller c (s.owner c) inv.consistent status
        proper.1 proper.2 ready
      exact ⟨_, by rw [Owners.next, torn, Option.map_some]⟩
  · rintro c call closing ⟨conn, owner, allowed⟩
    have status := inv.status c
    rw [owner] at status
    simp only [Owners.next, owner]
    rcases closing with rfl | rfl
    · cases status with
      | connecting fresh => rcases allowed with up | up <;> cases up
      | closed quiet => rcases allowed with up | up <;> cases up
      | removed detached => rcases allowed with up | up <;> cases up
      | up state_ here =>
          obtain ⟨q, applied⟩ :=
            interest_total s.poller c .disableAll (by simp) inv.consistent (Or.inl here)
          simp only [Connection.perform, applied, Option.map_some]
          exact ⟨_, rfl⟩
    · cases status with
      | connecting fresh => exact absurd allowed.1 (by simp)
      | up state_ here => exact absurd allowed.1 (by simp)
      | removed detached => exact absurd allowed.2 (by simp)
      | closed quiet =>
          obtain ⟨q, removed, _⟩ := remove_detached s.poller c inv.consistent quiet
          simp only [Connection.perform, reduceCtorEq, ↓reduceIte, removed, Option.map_some]
          exact ⟨_, rfl⟩

/-- The life of an Acceptor that has listened. -/
theorem channel_teardown_acceptor :
    ∃ s, ((machine Int.ofNat).restrict Proper).Run (start Int.ofNat)
        [.construct 3 .acceptor, .listen 3, .destroy 3] s ∧
      s.owner 3 = .gone ∧ s.poller.hasChannel 3 = false := by
  obtain ⟨s, run, gone⟩ : ∃ s, ((machine Int.ofNat).restrict Proper).Run (start Int.ofNat)
      [.construct 3 .acceptor, .listen 3, .destroy 3] s ∧ s.owner 3 = .gone := by
    refine ⟨_, .cons ⟨⟨rfl, fun d lives => by cases lives⟩, trivial⟩ rfl
      (.cons ⟨⟨false, rfl⟩, trivial⟩ rfl (.cons ⟨rfl, ?_⟩ rfl .nil)), rfl⟩
    constructor
    · intro timer
      cases timer
    · intro silent
      cases silent
  exact ⟨s, run, gone, (channel_teardown Int.ofNat Int.natCast_nonneg _ s run).1 3 gone⟩

/-- Neither an Acceptor that has never listened nor a TimerQueue can be destroyed. -/
theorem channel_teardown_fails :
    (∃ s, (machine Int.ofNat).Run (start Int.ofNat) [.construct 3 .acceptor] s ∧
      (machine Int.ofNat).enabled s (.destroy 3) ∧ s.next (.destroy 3) = none) ∧
    ∃ s, (machine Int.ofNat).Run (start Int.ofNat) [.construct 3 .timerQueue] s ∧
      (machine Int.ofNat).enabled s (.destroy 3) ∧ s.next (.destroy 3) = none := by
  constructor
  · exact ⟨_, .single ⟨rfl, fun d lives => by cases lives⟩ rfl, rfl, rfl⟩
  · exact ⟨_, .single ⟨rfl, fun d lives => by cases lives⟩ rfl, rfl, rfl⟩

end Tundra.ChannelTeardown
