import Tundra.Net.ChannelTeardown

set_option autoImplicit false

/- The public calls of a TcpConnection on top of the owners of channels in one loop. All
calls are made on the loop's thread; what a callback does are further calls. -/
namespace Tundra.ConnectionCalls

open Library Poller ChannelTeardown

/-- The calls that a holder of the connection can make; `pending` says that the message of a
send does not go out whole. -/
inductive PublicCall
  | send (pending : Bool)
  | shutdown
  | forceClose
  | forceCLoseWithDelay
  | startRead
  | stopRead
deriving DecidableEq

variable {κ : Type*} [DecidableEq κ]

/-- The test of state_ at the head of the call; startRead and stopRead make none. -/
def PublicCall.Passes (conn : Connection) : PublicCall → Prop
  | .send _ | .shutdown => conn.state = .kConnected
  | .forceClose | .forceCLoseWithDelay =>
      conn.state = .kConnected ∨ conn.state = .kDisconnecting
  | .startRead | .stopRead => True

instance (conn : Connection) : (call : PublicCall) → Decidable (call.Passes conn)
  | .send _ | .shutdown => inferInstanceAs (Decidable (conn.state = .kConnected))
  | .forceClose | .forceCLoseWithDelay =>
      inferInstanceAs (Decidable (conn.state = .kConnected ∨ conn.state = .kDisconnecting))
  | .startRead | .stopRead => isTrue trivial

/-- What the call does behind its test. -/
def PublicCall.inner : PublicCall → ConnectionCall
  | .send pending => .sendInLoop pending
  | .shutdown | .forceClose | .forceCLoseWithDelay => .disconnecting
  | .startRead => .startReadInLoop
  | .stopRead => .stopReadInLoop

def publicCall (conn : Connection) (p : Poller κ) (c : κ) (call : PublicCall) :
    Option (Poller κ × Connection) :=
  if call.Passes conn then conn.perform p c call.inner else some (p, conn)

/-- The calls of one callback, in order. -/
def publicCalls (conn : Connection) (p : Poller κ) (c : κ) :
    List PublicCall → Option (Poller κ × Connection)
  | [] => some (p, conn)
  | call :: rest => (publicCall conn p c call).bind fun r => publicCalls r.2 r.1 c rest

/-- `downs` counts the calls of connectionCallback_ with the connection down. -/
structure State (κ : Type*) where
  owners : Owners κ
  downs : κ → Nat

inductive Label (κ : Type*)
  | loop (label : ChannelTeardown.Label κ)
  | user (c : κ) (call : PublicCall)

/-- A step of the loop that is not a public call in disguise. -/
def LoopStep : ChannelTeardown.Label κ → Prop
  | .call _ .startReadInLoop | .call _ .stopReadInLoop | .call _ .disconnecting
  | .call _ .storeDisconnecting => False
  | _ => True

def Enabled (fds : κ → Int) (s : State κ) : Label κ → Prop
  | .loop label => LoopStep label ∧ s.owners.Enabled fds label
  | .user c _ => ∃ conn, s.owners.owner c = .connection conn ∧ conn.state ≠ .kConnecting

/-- handleClose calls connectionCallback_ with the connection down. -/
def countDown (downs : κ → Nat) : ChannelTeardown.Label κ → κ → Nat
  | .call c .handleClose => Function.update downs c (downs c + 1)
  | _ => downs

def next (s : State κ) : Label κ → Option (State κ)
  | .loop label => (s.owners.next label).map fun owners => ⟨owners, countDown s.downs label⟩
  | .user c call =>
      match s.owners.owner c with
      | .connection conn =>
          (publicCall conn s.owners.poller c call).map fun r =>
            { s with owners := s.owners.become c (.connection r.2) r.1 }
      | _ => none

def machine (fds : κ → Int) : Machine (State κ) (Label κ) where
  enabled := Enabled fds
  step := next

def start (fds : κ → Int) : State κ := ⟨ChannelTeardown.start fds, fun _ => 0⟩

/-- A call that passes its test is one that the connection allows. -/
theorem PublicCall.Passes.allowed {conn : Connection} {call : PublicCall}
    (passes : call.Passes conn) (given : conn.state ≠ .kConnecting) :
    conn.allowed call.inner := by
  cases call with
  | send pending => exact given
  | shutdown => exact .inl passes
  | forceClose | forceCLoseWithDelay => exact passes
  | startRead | stopRead => exact given

/-- On a connection that is down only startRead and stopRead pass their test. -/
theorem not_passes_of_down (conn : Connection) (call : PublicCall)
    (down : conn.state = .kDisconnected) (other : call ≠ .startRead ∧ call ≠ .stopRead) :
    ¬ call.Passes conn := by
  cases call with
  | send pending => simp [PublicCall.Passes, down]
  | shutdown => simp [PublicCall.Passes, down]
  | forceClose | forceCLoseWithDelay => simp [PublicCall.Passes, down]
  | startRead => exact absurd rfl other.1
  | stopRead => exact absurd rfl other.2

/-- Any function of a connection keeps the tables consistent and the other channels as they
are. -/
theorem perform_frame (conn after : Connection) (p q : Poller κ) (c : κ) (call : ConnectionCall)
    (inv : p.Consistent) (done : conn.perform p c call = some (q, after)) :
    q.Consistent ∧ Frame p c q := by
  cases call with
  | sendInLoop | handleWrite | startReadInLoop | stopReadInLoop =>
      rcases Connection.perform_interest done with ⟨applied, _⟩ | ⟨rfl, _⟩
      · exact apply_spec p c _ inv q applied
      · exact ⟨inv, .refl _ c⟩
  | disconnecting | storeDisconnecting =>
      cases done
      exact ⟨inv, .refl p c⟩
  | connectEstablished | handleClose =>
      obtain ⟨r, applied, same⟩ := Option.map_eq_some_iff.mp done
      cases same
      exact apply_spec p c _ inv q applied
  | connectDestroyed =>
      obtain ⟨⟨r, rfl | disabled, removed⟩, _⟩ := Connection.perform_destroyed done
      · exact apply_spec r c .remove inv q removed
      · obtain ⟨consistent, first⟩ := apply_spec p c .disableAll inv r disabled
        obtain ⟨final, second⟩ := apply_spec r c .remove consistent q removed
        exact ⟨final, first.trans second⟩

theorem teardown_frame (p q : Poller κ) (c : κ) (owner : Owner) (inv : p.Consistent)
    (torn : teardown p c owner = some q) : q.Consistent ∧ Frame p c q := by
  have destroyed : ∀ r : Poller κ, destroyChannel r c = some q → r = q := by
    intro r done
    unfold destroyChannel at done
    split at done
    · exact Option.some.inj done
    · cases done
  cases owner with
  | wakeup | acceptor =>
      obtain ⟨r, disabled, rest⟩ := Option.bind_eq_some_iff.mp torn
      obtain ⟨u, removed, last⟩ := Option.bind_eq_some_iff.mp rest
      obtain rfl := destroyed u last
      obtain ⟨middle, first⟩ := apply_spec p c _ inv r disabled
      obtain ⟨final, second⟩ := apply_spec r c _ middle u removed
      exact ⟨final, first.trans second⟩
  | timerQueue =>
      obtain ⟨r, disabled, last⟩ := Option.bind_eq_some_iff.mp torn
      obtain rfl := destroyed r last
      exact apply_spec p c _ inv r disabled
  | connection conn =>
      obtain rfl := destroyed p torn
      exact ⟨inv, .refl p c⟩
  | unborn | gone => cases torn

/-- What a step of the loop makes of one owner: a new connection, something that is none, or
what a function of a connection leaves. -/
inductive Action (s : Owners κ) (c : κ) (q : Poller κ) : ChannelTeardown.Label κ → Owner → Prop
  | created (unborn : s.owner c = .unborn) :
      Action s c q (.construct c .connection) (.connection Connection.create)
  | plain {label : ChannelTeardown.Label κ} {owner : Owner}
      (other : ∀ conn, owner ≠ .connection conn) (born : owner ≠ .unborn)
      (quiet : ∀ d call, label ≠ .call d call) : Action s c q label owner
  | performed {conn after : Connection} {call : ConnectionCall}
      (before : s.owner c = .connection conn) (allowed : conn.allowed call)
      (done : conn.perform s.poller c call = some (q, after)) :
      Action s c q (.call c call) (.connection after)

/-- The step changes one owner and keeps the tables consistent. -/
def Acts (s t : Owners κ) (label : ChannelTeardown.Label κ) : Prop :=
  ∃ c owner q, t = s.become c owner q ∧ q.Consistent ∧ Frame s.poller c q ∧
    Action s c q label owner

theorem owners_acts (fds : κ → Int) (s t : Owners κ) (label : ChannelTeardown.Label κ)
    (inv : s.poller.Consistent) (enabled : s.Enabled fds label) (moved : s.next label = some t) :
    Acts s t label := by
  have applies : ∀ (c : κ) (op : ChannelOp) (owner : Owner), (∀ conn, owner ≠ .connection conn) →
      owner ≠ .unborn → (∀ d call, label ≠ .call d call) →
      (s.poller.apply c op).map (s.become c owner) = some t → Acts s t label := by
    intro c op owner other born quiet stepped
    obtain ⟨q, applied, rfl⟩ := Option.map_eq_some_iff.mp stepped
    obtain ⟨consistent, frame⟩ := apply_spec _ c op inv q applied
    exact ⟨c, owner, q, rfl, consistent, frame, .plain other born quiet⟩
  cases label with
  | construct c kind =>
      cases kind with
      | wakeup => exact applies c _ _ (by simp) (by simp) (by simp) moved
      | timerQueue => exact applies c _ _ (by simp) (by simp) (by simp) moved
      | acceptor =>
          cases moved
          exact ⟨c, _, _, rfl, inv, .refl _ c, .plain (by simp) (by simp) (by simp)⟩
      | connection =>
          cases moved
          exact ⟨c, _, _, rfl, inv, .refl _ c, .created enabled.1⟩
  | listen c => exact applies c _ _ (by simp) (by simp) (by simp) moved
  | call c call =>
      obtain ⟨conn, owner, allowed⟩ := enabled
      simp only [Owners.next, owner] at moved
      obtain ⟨⟨q, after⟩, performed, rfl⟩ := Option.map_eq_some_iff.mp moved
      obtain ⟨consistent, frame⟩ := perform_frame conn after _ q c call inv performed
      exact ⟨c, _, q, rfl, consistent, frame, .performed owner allowed performed⟩
  | destroy c =>
      obtain ⟨q, torn, rfl⟩ := Option.map_eq_some_iff.mp moved
      obtain ⟨consistent, frame⟩ := teardown_frame _ q c _ inv torn
      exact ⟨c, _, q, rfl, consistent, frame, .plain (by simp) (by simp) (by simp)⟩

/-- Only a handleClose tells the callback of an end. -/
theorem countDown_of_ne (downs : κ → Nat) (label : ChannelTeardown.Label κ)
    (other : ∀ c, label ≠ .call c .handleClose) : countDown downs label = downs := by
  unfold countDown
  split
  · rename_i c
    exact absurd rfl (other c)
  · rfl

end Tundra.ConnectionCalls
