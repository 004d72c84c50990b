import Mathlib.Tactic.Common
import Tundra.Net.TcpServer

set_option autoImplicit false

/- The books of the connections of a TcpServer: what they are up for, where they are
listed and what has been called for them, kept through user calls and a closing. -/
namespace Tundra

theorem StateE.rank_le_down (state : StateE) : state.rank ≤ StateE.kDisconnected.rank := by
  cases state <;> decide

namespace TcpConnection

def Up (c : TcpConnection) : Prop := c.state = .kConnected ∨ c.state = .kDisconnecting

def Down (c : TcpConnection) : Prop :=
  c.state = .kDisconnected ∧ c.channel.events = Events.kNoneEvent

theorem Up.not_down {c : TcpConnection} (up : c.Up) : ¬ c.Down := by
  intro down
  rcases up with up | up <;> cases up.symm.trans down.1

/-- What every operation but the two ends of the life leaves of a connection. -/
structure Gentle (c : TcpConnection) (r : Outcome) : Prop where
  name : r.1.name = c.name
  forward : c.state.rank ≤ r.1.state.rank
  up : c.Up → r.1.Up
  reading : r.1.channel.events.read = c.channel.events.read
  down : c.Down → r.1.Down
  quiet : Effect.queueInLoop .connectDestroyed ∉ r.2

theorem Calm.gentle {c : TcpConnection} {r : Outcome} (calm : Calm c r)
    (down : c.Down → r.1 = c) : Gentle c r where
  name := calm.frame.name
  forward := by rw [calm.frame.state]
  up := by
    intro up
    rw [Up, calm.frame.state]
    exact up
  reading := calm.frame.readInterest
  down := by
    intro off
    rw [down off]
    exact off
  quiet := calm.quiet _

/-- The operation changes neither the state nor the interest set. -/
theorem Gentle.of_same {c : TcpConnection} {r : Outcome} (name : r.1.name = c.name)
    (state : r.1.state = c.state) (events : r.1.channel.events = c.channel.events)
    (quiet : Effect.queueInLoop .connectDestroyed ∉ r.2) : Gentle c r where
  name := name
  forward := by rw [state]
  up := by
    rw [Up, Up, state]
    exact id
  reading := by rw [events]
  down := by
    rw [Down, Down, state, events]
    exact id
  quiet := quiet

theorem Gentle.refl (c : TcpConnection) : Gentle c (c, []) :=
  (Calm.refl c).gentle fun _ => rfl

theorem sendArg_gentle (c : TcpConnection) (mem : Memory) (behind : Nat → UInt8)
    (answer : WriteResult) (arg : SendArg) :
    ∃ r, (c.sendArg mem behind true answer arg).map Prod.fst = some r ∧ Gentle c r := by
  obtain ⟨r, left, done, calm, _⟩ := sendArg_calm c mem behind answer arg
  refine ⟨r, by rw [done, Option.map_some], calm.gentle ?_⟩
  intro down
  have closed : c.state ≠ .kConnected := by simp [down.1]
  rw [sendArg_closed c mem behind true answer arg closed] at done
  cases done
  rfl

theorem runSend_gentle (c : TcpConnection) (mem : Memory) (behind : Nat → UInt8)
    (answer : WriteResult) (bound : Bound) :
    ∃ r, c.runSend mem behind answer bound = some r ∧ Gentle c r := by
  obtain ⟨r, done, calm, _⟩ := runSend_calm c mem behind answer bound
  refine ⟨r, done, calm.gentle ?_⟩
  intro down
  cases bound with
  | pointer msg len =>
      rw [runSend, sendInLoop, if_pos down.1] at done
      cases done
      rfl
  | string msg =>
      rw [runSend, sendInLoop, if_pos down.1] at done
      cases done
      rfl

theorem handleWrite_gentle (c : TcpConnection) (answer : WriteResult) :
    ∃ r, c.handleWrite answer = some r ∧ Gentle c r := by
  obtain ⟨r, done, calm⟩ := handleWrite_calm c answer
  refine ⟨r, done, calm.gentle ?_⟩
  intro down
  have silent : ¬ c.channel.isWriting = true := by
    simp [Channel.isWriting, down.2, Events.kNoneEvent]
  unfold handleWrite at done
  rw [if_neg silent] at done
  cases done
  rfl

theorem shutdownInLoop_gentle (c : TcpConnection) : Gentle c (c.shutdownInLoop, []) := by
  unfold shutdownInLoop
  split
  · exact Gentle.refl c
  · exact Gentle.of_same rfl rfl rfl (by simp)

/-- A connection that is up and begins to close. -/
theorem closing_gentle (c : TcpConnection) (effects : List Effect) (up : c.Up)
    (quiet : Effect.queueInLoop .connectDestroyed ∉ effects) :
    Gentle c ({ c with state := .kDisconnecting }, effects) where
  name := rfl
  forward := by rcases up with up | up <;> simp [up, StateE.rank]
  up := fun _ => Or.inr rfl
  reading := rfl
  down := fun down => absurd down up.not_down
  quiet := quiet

theorem forceClose_gentle (c : TcpConnection) : Gentle c c.forceClose := by
  unfold forceClose
  split
  · rename_i up
    exact closing_gentle c _ up (by simp)
  · exact Gentle.refl c

theorem forceCLoseWithDelay_gentle (c : TcpConnection) : Gentle c c.forceCLoseWithDelay := by
  unfold forceCLoseWithDelay
  split
  · rename_i up
    exact closing_gentle c _ up (by simp)
  · exact Gentle.refl c

theorem shutdown_gentle (c : TcpConnection) : Gentle c (c.shutdown true) := by
  unfold shutdown
  split
  · rename_i connected
    have first := closing_gentle c [] (Or.inl connected) (by simp)
    have second := shutdownInLoop_gentle { c with state := .kDisconnecting }
    exact {
      name := second.name.trans first.name
      forward := Nat.le_trans first.forward second.forward
      up := fun up => second.up (first.up up)
      reading := second.reading.trans first.reading
      down := fun down => second.down (first.down down)
      quiet := second.quiet }
  · exact Gentle.refl c

end TcpConnection

namespace ConnectionObject

/-- The recorded states lead forward to the present one. -/
structure History (o : ConnectionObject) : Prop where
  forward : o.states.Pairwise fun a b => a.rank ≤ b.rank
  reached : ∀ a ∈ o.states, a.rank ≤ o.conn.state.rank
  latest : o.states.getLast? = some o.conn.state

theorem create_history (conn : TcpConnection) : (create conn).History :=
  ⟨List.pairwise_singleton _ _, by simp [create], rfl⟩

theorem moveTo_history (o : ConnectionObject) (conn : TcpConnection) (history : o.History)
    (forward : o.conn.state.rank ≤ conn.state.rank) : (moveTo conn o).History where
  forward := by
    apply List.pairwise_append.mpr
    refine ⟨history.forward, List.pairwise_singleton _ _, ?_⟩
    intro a old b new
    rw [List.mem_singleton.mp new]
    exact Nat.le_trans (history.reached a old) forward
  reached := by
    intro a member
    rcases List.mem_append.mp member with old | new
    · exact Nat.le_trans (history.reached a old) forward
    · rw [List.mem_singleton.mp new]
      exact Nat.le_refl _
  latest := List.getLast?_concat

/-- The object after operations that are all gentle. -/
structure Eased (o p : ConnectionObject) : Prop where
  name : p.conn.name = o.conn.name
  calls : p.calls = o.calls
  history : o.History → p.History
  up : o.conn.Up → p.conn.Up
  reading : p.conn.channel.events.read = o.conn.channel.events.read
  down : o.conn.Down → p.conn.Down

theorem Eased.refl (o : ConnectionObject) : Eased o o := ⟨rfl, rfl, id, id, rfl, id⟩

theorem Eased.trans {o p q : ConnectionObject} (first : Eased o p) (second : Eased p q) :
    Eased o q where
  name := second.name.trans first.name
  calls := second.calls.trans first.calls
  history := second.history ∘ first.history
  up := second.up ∘ first.up
  reading := second.reading.trans first.reading
  down := second.down ∘ first.down

theorem moveTo_eased (o : ConnectionObject) (r : TcpConnection.Outcome)
    (gentle : TcpConnection.Gentle o.conn r) : Eased o (moveTo r.1 o) where
  name := gentle.name
  calls := rfl
  history := fun history => moveTo_history o r.1 history gentle.forward
  up := gentle.up
  reading := gentle.reading
  down := gentle.down

end ConnectionObject

namespace TcpServer

open ConnectionObject (History Eased)
open TcpConnection (Gentle Outcome)

/-- How many connectDestroyed are waiting for the connection. -/
def State.destroyQueued (s : State) (i : Nat) : Nat :=
  (s.functors ++ s.pendingFunctors).count (i, .connectDestroyed)

/-- The state after steps that only make gentle changes to the connections. -/
structure Touched (s t : State) : Prop where
  server : t.server = s.server
  active : t.activeChannels = s.activeChannels
  batch : t.functors = s.functors
  queue : ∀ i, t.destroyQueued i = s.destroyQueued i
  size : t.objects.length = s.objects.length
  objects : ∀ (i : Nat) (o : ConnectionObject), s.objects[i]? = some o →
    ∃ p, t.objects[i]? = some p ∧ Eased o p

theorem Touched.refl (s : State) : Touched s s :=
  ⟨rfl, rfl, rfl, fun _ => rfl, rfl, fun _ o found => ⟨o, found, Eased.refl o⟩⟩

theorem Touched.trans {s t u : State} (first : Touched s t) (second : Touched t u) :
    Touched s u where
  server := second.server.trans first.server
  active := second.active.trans first.active
  batch := second.batch.trans first.batch
  queue := fun i => (second.queue i).trans (first.queue i)
  size := second.size.trans first.size
  objects := by
    intro i o found
    obtain ⟨p, there, eased⟩ := first.objects i o found
    obtain ⟨q, last, further⟩ := second.objects i p there
    exact ⟨q, last, eased.trans further⟩

theorem effect_touched (s : State) (i : Nat) (e : Effect)
    (quiet : e ≠ .queueInLoop .connectDestroyed) : Touched s (s.effect i e) := by
  cases e with
  | queueInLoop f =>
      refine ⟨rfl, rfl, rfl, ?_, rfl, fun _ o found => ⟨o, found, Eased.refl o⟩⟩
      intro j
      have other : ((i, f) : Nat × Functor) ≠ (j, .connectDestroyed) := by
        intro same
        cases same
        exact quiet rfl
      simp only [State.effect, State.destroyQueued, ← List.append_assoc]
      rw [List.count_append, List.count_singleton, if_neg (by simpa using other), Nat.add_zero]
  | runAfterForceClose => exact ⟨rfl, rfl, rfl, fun _ => rfl, rfl, (Touched.refl s).objects⟩
  | updateChannel events => exact Touched.refl s
  | removeChannel => exact Touched.refl s

theorem effects_touched (s : State) (i : Nat) (effects : List Effect)
    (quiet : Effect.queueInLoop .connectDestroyed ∉ effects) :
    Touched s (effects.foldl (State.effect i) s) := by
  induction effects generalizing s with
  | nil => exact Touched.refl s
  | cons e rest ih =>
      rw [List.mem_cons, not_or] at quiet
      have first := effect_touched s i e (Ne.symm quiet.1)
      exact first.trans (ih (s.effect i e) quiet.2)

theorem setConn_touched (s : State) (i : Nat) (o : ConnectionObject) (r : Outcome)
    (found : s.objects[i]? = some o) (gentle : Gentle o.conn r) :
    Touched s (s.setConn i r.1) := by
  refine ⟨rfl, rfl, rfl, fun _ => rfl, by simp [State.setConn], ?_⟩
  intro j p there
  by_cases same : i = j
  · subst same
    rw [found] at there
    cases there
    exact ⟨_, by simp [State.setConn, found], ConnectionObject.moveTo_eased o r gentle⟩
  · exact ⟨p, by simp [State.setConn, same, there], Eased.refl p⟩

/-- An operation that is gentle on the connection it is applied to. -/
theorem apply_touched_at (s : State) (i : Nat) (op : TcpConnection → Option Outcome)
    (gentle : ∀ o, s.objects[i]? = some o → ∃ r, op o.conn = some r ∧ Gentle o.conn r) :
    ∃ t, s.apply i op = some t ∧ Touched s t := by
  unfold State.apply
  cases found : s.objects[i]? with
  | none => exact ⟨s, rfl, Touched.refl s⟩
  | some o =>
      obtain ⟨r, done, kind⟩ := gentle o found
      have moved := setConn_touched s i o r found kind
      have after := effects_touched (s.setConn i r.1) i r.2 kind.quiet
      exact ⟨_, congrArg (Option.map _) done, moved.trans after⟩

theorem apply_touched (s : State) (i : Nat) (op : TcpConnection → Option Outcome)
    (gentle : ∀ c, ∃ r, op c = some r ∧ Gentle c r) :
    ∃ t, s.apply i op = some t ∧ Touched s t :=
  apply_touched_at s i op fun o _ => gentle o.conn

theorem userCall_touched (s : State) (call : UserCall) :
    ∃ t, s.userCall call = some t ∧ Touched s t := by
  cases call with
  | send i arg mem behind answer =>
      exact apply_touched s i _ fun c => c.sendArg_gentle mem behind answer arg
  | shutdown i => exact apply_touched s i _ fun c => ⟨_, rfl, c.shutdown_gentle⟩
  | forceClose i => exact apply_touched s i _ fun c => ⟨_, rfl, c.forceClose_gentle⟩
  | forceCLoseWithDelay i =>
      exact apply_touched s i _ fun c => ⟨_, rfl, c.forceCLoseWithDelay_gentle⟩

theorem userCalls_touched (s : State) (calls : List UserCall) :
    ∃ t, s.userCalls calls = some t ∧ Touched s t := by
  induction calls generalizing s with
  | nil => exact ⟨s, rfl, Touched.refl s⟩
  | cons call rest ih =>
      obtain ⟨t, done, first⟩ := userCall_touched s call
      obtain ⟨u, played, later⟩ := ih t
      exact ⟨u, by rw [State.userCalls, done, Option.bind_some, played], first.trans later⟩

/-- The books of one connection: whether it is up, whether connections_ holds it, and
how often it has been called. A connectDestroyed in the queue counts as called. -/
structure Account where
  live : Bool
  listed : Bool
  ups : Nat
  downs : Nat
  closes : Nat
  destroys : Nat

def Account.open : Account := ⟨true, true, 1, 0, 0, 0⟩
def Account.gone : Account := ⟨false, false, 1, 1, 1, 1⟩

def Account.enter (a : Account) : Call → Account
  | .connectionCallback true => { a with ups := a.ups + 1 }
  | .connectionCallback false => { a with downs := a.downs + 1 }
  | .closeCallback => { a with closes := a.closes + 1 }
  | .connectDestroyed => { a with destroys := a.destroys + 1 }

/-- The books that a connection may have between steps. -/
def Account.Settled (a : Account) : Prop := a = .open ∨ a = .gone

/-- The books are those of the object with the number `i`. -/
structure Fits (s : State) (i : Nat) (o : ConnectionObject) (a : Account) : Prop where
  name : o.conn.name = s.server.connName (i + 1)
  history : o.History
  live : a.live = true → o.conn.Up ∧ o.conn.channel.events.read = true
  down : a.live = false → o.conn.Down
  listed : s.server.connections.find o.conn.name = if a.listed then some i else none
  ups : o.calls.count (.connectionCallback true) = a.ups
  downs : o.calls.count (.connectionCallback false) = a.downs
  closes : o.calls.count .closeCallback = a.closes
  destroys : o.calls.count .connectDestroyed + s.destroyQueued i = a.destroys
  reported : i ∈ s.activeChannels.map Prod.fst → a.live = true

/-- Every connection has books that are allowed for it. -/
structure Holds (s : State) (allowed : Nat → Account → Prop) : Prop where
  objects : ∀ (i : Nat) (o : ConnectionObject), s.objects[i]? = some o →
    ∃ a, allowed i a ∧ Fits s i o a
  entries : ∀ (name : Bytes) (i : Nat), s.server.connections.find name = some i →
    ∃ o, s.objects[i]? = some o ∧ o.conn.name = name
  nextConnId : s.server.nextConnId = wrapInt (s.objects.length + 1)
  ipPort : s.server.ipPort.length ≤ 22
  unborn : ∀ i, s.objects.length ≤ i → s.destroyQueued i = 0
  active : (s.activeChannels.map Prod.fst).Nodup
  reports : ∀ report ∈ s.activeChannels,
    report.1 < s.objects.length ∧ report.2.cleanHangUp = true
  batch : s.functors ≠ [] → s.activeChannels = []

def Invariant (s : State) : Prop := Holds s fun _ => Account.Settled

/-- All connections are settled but one, which has the books `a`. -/
def AllBut (s : State) (i : Nat) (a : Account) : Prop :=
  Holds s fun j b => if j = i then b = a else b.Settled

theorem Holds.weaken {s : State} {allowed more : Nat → Account → Prop} (holds : Holds s allowed)
    (wider : ∀ i a, allowed i a → more i a) : Holds s more := by
  refine { holds with objects := ?_ }
  intro i o found
  obtain ⟨a, fine, fits⟩ := holds.objects i o found
  exact ⟨a, wider i a fine, fits⟩

theorem AllBut.settle {s : State} {i : Nat} {a : Account} (allBut : AllBut s i a)
    (settled : a.Settled) : Invariant s := by
  apply allBut.weaken
  intro j b fine
  by_cases same : j = i
  · rw [if_pos same] at fine
    rw [fine]
    exact settled
  · rwa [if_neg same] at fine

theorem Fits.touched {s t : State} {i : Nat} {o p : ConnectionObject} {a : Account}
    (fits : Fits s i o a) (touched : Touched s t) (eased : Eased o p) : Fits t i p a where
  name := by rw [eased.name, touched.server, fits.name]
  history := eased.history fits.history
  live := by
    intro live
    rw [eased.reading]
    exact ⟨eased.up (fits.live live).1, (fits.live live).2⟩
  down := fun dead => eased.down (fits.down dead)
  listed := by rw [eased.name, touched.server, fits.listed]
  ups := by rw [eased.calls, fits.ups]
  downs := by rw [eased.calls, fits.downs]
  closes := by rw [eased.calls, fits.closes]
  destroys := by rw [eased.calls, touched.queue, fits.destroys]
  reported := by
    rw [touched.active]
    exact fits.reported

theorem Holds.touched {s t : State} {allowed : Nat → Account → Prop} (holds : Holds s allowed)
    (touched : Touched s t) : Holds t allowed where
  objects := by
    intro i p found
    have inside : i < s.objects.length := by
      rw [← touched.size]
      exact (List.getElem?_eq_some_iff.mp found).1
    obtain ⟨q, there, eased⟩ := touched.objects i _ (List.getElem?_eq_getElem inside)
    obtain ⟨a, fine, fits⟩ := holds.objects i _ (List.getElem?_eq_getElem inside)
    rw [found] at there
    cases there
    exact ⟨a, fine, fits.touched touched eased⟩
  entries := by
    intro name i
    rw [touched.server]
    intro held
    obtain ⟨o, found, named⟩ := holds.entries name i held
    obtain ⟨p, there, eased⟩ := touched.objects i o found
    exact ⟨p, there, eased.name.trans named⟩
  nextConnId := by rw [touched.server, touched.size, holds.nextConnId]
  ipPort := by rw [touched.server]; exact holds.ipPort
  unborn := by
    intro i beyond
    rw [touched.queue]
    exact holds.unborn i (touched.size ▸ beyond)
  active := by rw [touched.active]; exact holds.active
  reports := by rw [touched.active, touched.size]; exact holds.reports
  batch := by rw [touched.batch, touched.active]; exact holds.batch

/-- A call changes neither what the connection is up for nor where it is listed. -/
theorem Account.enter_kept (a : Account) (call : Call) :
    (a.enter call).live = a.live ∧ (a.enter call).listed = a.listed := by
  cases call with
  | connectionCallback up => cases up <;> exact ⟨rfl, rfl⟩
  | closeCallback => exact ⟨rfl, rfl⟩
  | connectDestroyed => exact ⟨rfl, rfl⟩

/-- The books after one more call. -/
theorem Fits.enter {s : State} {i : Nat} {o : ConnectionObject} {a : Account}
    (fits : Fits s i o a) (call : TcpConnection → Call) :
    Fits s i (o.note call) (a.enter (call o.conn)) := by
  have ups := fits.ups
  have downs := fits.downs
  have closes := fits.closes
  have destroys := fits.destroys
  obtain ⟨live, listed⟩ := a.enter_kept (call o.conn)
  refine ⟨fits.name, ⟨fits.history.forward, fits.history.reached, fits.history.latest⟩, ?_, ?_,
    ?_, ?_, ?_, ?_, ?_, ?_⟩
  · rw [live]
    exact fits.live
  · rw [live]
    exact fits.down
  · rw [listed]
    exact fits.listed
  · rw [ConnectionObject.note, List.count_append, List.count_singleton, ups]
    rcases call o.conn with (_ | _) | _ | _ <;> rfl
  · rw [ConnectionObject.note, List.count_append, List.count_singleton, downs]
    rcases call o.conn with (_ | _) | _ | _ <;> rfl
  · rw [ConnectionObject.note, List.count_append, List.count_singleton, closes]
    rcases call o.conn with (_ | _) | _ | _ <;> rfl
  · rw [ConnectionObject.note, List.count_append, List.count_singleton, Nat.add_right_comm,
      destroys]
    rcases call o.conn with (_ | _) | _ | _ <;> rfl
  · rw [live]
    exact fits.reported

/-- One object is changed and the books of the others stay. -/
theorem modify_allBut {s : State} {allowed : Nat → Account → Prop} {i : Nat}
    {o : ConnectionObject} {b : Account} (f : ConnectionObject → ConnectionObject)
    (holds : Holds s allowed) (others : ∀ j a, j ≠ i → allowed j a → a.Settled)
    (found : s.objects[i]? = some o) (named : (f o).conn.name = o.conn.name)
    (fits : Fits s i (f o) b) : AllBut { s with objects := s.objects.modify i f } i b where
  objects := by
    intro j p there
    by_cases same : i = j
    · subst same
      have changed : p = f o := by simpa [found] using there.symm
      rw [changed]
      exact ⟨b, by rw [if_pos rfl], { fits with }⟩
    · have kept : s.objects[j]? = some p := by simpa [same] using there
      obtain ⟨a, fine, fits⟩ := holds.objects j p kept
      refine ⟨a, ?_, { fits with }⟩
      rw [if_neg (Ne.symm same)]
      exact others j a (Ne.symm same) fine
  entries := by
    intro name j held
    obtain ⟨p, there, equal⟩ := holds.entries name j held
    by_cases same : i = j
    · subst same
      rw [found] at there
      cases there
      exact ⟨f o, by simp [found], named.trans equal⟩
    · exact ⟨p, by simp [same, there], equal⟩
  nextConnId := by simpa using holds.nextConnId
  ipPort := holds.ipPort
  unborn := by
    intro j beyond
    exact holds.unborn j (by simpa using beyond)
  active := holds.active
  reports := by simpa using holds.reports
  batch := holds.batch

theorem AllBut.fits {s : State} {i : Nat} {a : Account} (allBut : AllBut s i a)
    (inside : i < s.objects.length) :
    ∃ o, s.objects[i]? = some o ∧ Fits s i o a := by
  have found := List.getElem?_eq_getElem inside
  obtain ⟨b, fine, fits⟩ := allBut.objects i _ found
  rw [if_pos rfl] at fine
  exact ⟨_, found, fine ▸ fits⟩

theorem note_allBut {s : State} {i : Nat} {a : Account} (allBut : AllBut s i a)
    (o : ConnectionObject) (found : s.objects[i]? = some o) (call : TcpConnection → Call) :
    AllBut (s.note i call) i (a.enter (call o.conn)) := by
  obtain ⟨p, there, fits⟩ := allBut.fits (List.getElem?_eq_some_iff.mp found).1
  rw [found] at there
  cases there
  apply modify_allBut _ allBut _ found rfl (fits.enter call)
  intro j b other fine
  rwa [if_neg other] at fine

theorem connectionCallback_allBut {s : State} {i : Nat} {a : Account} (allBut : AllBut s i a)
    (o : ConnectionObject) (found : s.objects[i]? = some o) (calls : List UserCall) :
    ∃ t, s.connectionCallback i calls = some t ∧ t.objects.length = s.objects.length ∧
      AllBut t i (a.enter (.connectionCallback (o.conn.state == .kConnected))) := by
  have noted := note_allBut allBut o found fun c => .connectionCallback (c.state == .kConnected)
  obtain ⟨t, played, touched⟩ :=
    userCalls_touched (s.note i fun c => .connectionCallback (c.state == .kConnected)) calls
  refine ⟨t, played, ?_, noted.touched touched⟩
  rw [touched.size, State.note, List.length_modify]

/-- What removeConnectionInLoop leaves when its assertion holds. -/
def State.unlisted (s : State) (i : Nat) (name : Bytes) : State :=
  { s with
    server := { s.server with connections := s.server.connections.erase name }
    pendingFunctors := s.pendingFunctors ++ [(i, .connectDestroyed)] }

theorem unlisted_destroyQueued (s : State) (i j : Nat) (name : Bytes) :
    (s.unlisted i name).destroyQueued j = s.destroyQueued j + if j = i then 1 else 0 := by
  unfold State.unlisted State.destroyQueued
  rw [← List.append_assoc, List.count_append, List.count_singleton]
  by_cases same : j = i
  · simp [same]
  · have other : ¬ i = j := Ne.symm same
    simp [same, other]

/-- No other connection has the name in the map. -/
theorem unlisted_allBut {s : State} {i : Nat} {a : Account} {o : ConnectionObject}
    (allBut : AllBut s i a) (found : s.objects[i]? = some o) (fits : Fits s i o a)
    (listed : a.listed = true) :
    AllBut (s.unlisted i o.conn.name) i
      { a with listed := false, destroys := a.destroys + 1 } := by
  have inside : i < s.objects.length := (List.getElem?_eq_some_iff.mp found).1
  have held : s.server.connections.find o.conn.name = some i := by
    rw [fits.listed, if_pos listed]
  refine { allBut with objects := ?_, entries := ?_, unborn := ?_ }
  · intro j p there
    by_cases same : j = i
    · subst same
      obtain rfl : o = p := Option.some.inj (found.symm.trans there)
      refine ⟨{ a with listed := false, destroys := a.destroys + 1 }, by rw [if_pos rfl],
        { fits with listed := ?_, destroys := ?_ }⟩
      · exact Library.OrderedMap.find_erase_self _ _
      · rw [unlisted_destroyQueued, if_pos rfl, ← Nat.add_assoc, fits.destroys]
    · obtain ⟨b, settled, books⟩ := allBut.objects j p there
      have different : o.conn.name ≠ p.conn.name := by
        intro equal
        have twice := books.listed
        rw [← equal, held] at twice
        split at twice
        · exact same (Option.some.inj twice).symm
        · cases twice
      rw [if_neg same] at settled
      refine ⟨b, by rwa [if_neg same], { books with listed := ?_, destroys := ?_ }⟩
      · exact (Library.OrderedMap.find_erase_of_ne _ different).trans books.listed
      · rw [unlisted_destroyQueued, if_neg same, Nat.add_zero, books.destroys]
  · intro name j kept
    by_cases same : o.conn.name = name
    · subst same
      rw [State.unlisted, Library.OrderedMap.find_erase_self] at kept
      cases kept
    · rw [State.unlisted, Library.OrderedMap.find_erase_of_ne _ same] at kept
      exact allBut.entries name j kept
  · intro j beyond
    have above : s.objects.length ≤ j := beyond
    rw [unlisted_destroyQueued, if_neg (by omega), Nat.add_zero]
    exact allBut.unborn j above

/-- The assertion of removeConnectionInLoop holds for a connection in the map. -/
theorem removeConnectionInLoop_eq {s : State} {i : Nat} {a : Account} {o : ConnectionObject}
    (found : s.objects[i]? = some o) (fits : Fits s i o a) (listed : a.listed = true) :
    s.removeConnectionInLoop i = some (s.unlisted i o.conn.name) := by
  have held : s.server.connections.find o.conn.name = some i := by
    rw [fits.listed, if_pos listed]
  have one : s.server.connections.count o.conn.name = 1 := by
    rw [Library.OrderedMap.count, held]
    rfl
  simp only [State.removeConnectionInLoop, found, one, ↓reduceIte]
  rfl

/-- The call completes, and leaves `n` connections and the invariant. -/
def Survives (result : Option State) (n : Nat) : Prop :=
  ∃ t, result = some t ∧ t.objects.length = n ∧ Invariant t

theorem Invariant.survives {s : State} {result : Option State} (inv : Invariant s)
    (done : ∃ t, result = some t ∧ Touched s t) : Survives result s.objects.length := by
  obtain ⟨t, played, touched⟩ := done
  exact ⟨t, played, touched.size, Holds.touched inv touched⟩

/-- A connection that is up has the books of one. -/
theorem Invariant.open_of_up {s : State} {i : Nat} {o : ConnectionObject} (inv : Invariant s)
    (found : s.objects[i]? = some o) (up : o.conn.Up) : Fits s i o .open := by
  obtain ⟨a, rfl | rfl, fits⟩ := inv.objects i o found
  · exact fits
  · exact absurd (fits.down rfl) up.not_down

/-- The first part of handleClose, whose assertion asks for a connection that is up. -/
theorem apply_handleClose {s : State} {i : Nat} {o : ConnectionObject} (inv : Invariant s)
    (found : s.objects[i]? = some o) (up : o.conn.Up)
    (handled : i ∉ s.activeChannels.map Prod.fst) :
    s.apply i TcpConnection.handleClose = some (s.setConn i o.conn.takeDown.1) ∧
      AllBut (s.setConn i o.conn.takeDown.1) i ⟨false, true, 1, 0, 0, 0⟩ := by
  have fits := inv.open_of_up found up
  constructor
  · have passes : o.conn.handleClose = some o.conn.takeDown := if_pos up
    simp only [State.apply, found, passes, Option.map_some]
    rfl
  · apply modify_allBut _ inv _ found rfl
    · refine { fits with history := ?_, live := ?_, down := ?_, reported := ?_ }
      · exact ConnectionObject.moveTo_history o _ fits.history (StateE.rank_le_down _)
      · intro live
        cases live
      · intro _
        exact ⟨rfl, rfl⟩
      · intro member
        exact absurd member handled
    · intro j a _ settled
      exact settled

theorem handleClose_survives {s : State} {i : Nat} {o : ConnectionObject} (inv : Invariant s)
    (calls : List UserCall) (found : s.objects[i]? = some o) (up : o.conn.Up)
    (handled : i ∉ s.activeChannels.map Prod.fst) :
    Survives (s.handleClose i calls) s.objects.length := by
  obtain ⟨passed, closing⟩ := apply_handleClose inv found up handled
  have changed : (s.setConn i o.conn.takeDown.1).objects[i]? =
      some (o.moveTo o.conn.takeDown.1) := by
    simp [State.setConn, found]
  -- connectionCallback_ finds the connection down
  obtain ⟨t, called, size, down⟩ := connectionCallback_allBut closing _ changed calls
  have inside : i < t.objects.length := by
    rw [size, State.setConn, List.length_modify]
    exact (List.getElem?_eq_some_iff.mp found).1
  obtain ⟨p, there, _⟩ := down.fits inside
  -- closeCallback_ takes it out of the map
  have closed := note_allBut down p there fun _ => .closeCallback
  have kept : i < (t.note i fun _ => .closeCallback).objects.length := by
    simpa [State.note] using inside
  obtain ⟨q, last, books⟩ := closed.fits kept
  have removed := removeConnectionInLoop_eq last books rfl
  refine ⟨_, ?_, ?_, (unlisted_allBut closed last books rfl).settle (Or.inr rfl)⟩
  · rw [State.handleClose, passed, Option.bind_some, called, Option.bind_some,
      State.removeConnection, removed]
  · simp [State.unlisted, State.note, size, State.setConn]

end TcpServer
end Tundra
