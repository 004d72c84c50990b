import Tundra.Net.ConnectionCalls

set_option autoImplicit false

/- ~TcpServer: connectDestroyed on every connection that connections_ still holds. -/
namespace Tundra.ServerTeardown

open Library Poller ChannelTeardown ConnectionCalls

variable {κ : Type*}

/-- The connection is in connections_ and has been established. -/
def Live (s : State κ) (c : κ) : Prop :=
  ∃ conn, s.owners.owner c = .connection conn ∧ conn.closed = false ∧ conn.removed = false ∧
    conn.state ≠ .kConnecting

/-- As ~TcpConnection and the Poller expect a connection at its end: it is down, its channel
is out of the Poller, and connectionCallback_ has been called once with the connection down. -/
def Finished (s : State κ) (c : κ) : Prop :=
  ∃ conn, s.owners.owner c = .connection conn ∧ conn.state = .kDisconnected ∧
    ¬ s.owners.poller.Registered c ∧ s.downs c = 1

/-- Whether the channel reads after the calls, `reading` telling it before them. -/
def switched (reading : Bool) : List PublicCall → Bool
  | [] => reading
  | .startRead :: rest => switched true rest
  | .stopRead :: rest => switched false rest
  | .send _ :: rest | .shutdown :: rest | .forceClose :: rest | .forceCLoseWithDelay :: rest =>
      switched reading rest

/-- The connection is up and nobody has called shutdown or forceClose on it, and the callback
that hears of its end does not leave reading on. -/
def Ready (s : State κ) (c : κ) (calls : List PublicCall) : Prop :=
  (∃ conn, s.owners.owner c = .connection conn ∧ conn.state = .kConnected) ∧
    switched false calls = false

section Model

variable [DecidableEq κ]

/-- connectDestroyed, with the calls that connectionCallback_ makes on the connection. -/
def connectDestroyed (s : State κ) (c : κ) (calls : List PublicCall) : Option (State κ) :=
  match s.owners.owner c with
  | .connection conn =>
      if conn.state = .kConnected then
        (s.owners.poller.apply c .disableAll).bind fun p =>
          (publicCalls { conn with state := .kDisconnected } p c calls).bind fun r =>
            (r.1.apply c .remove).map fun q =>
              ⟨s.owners.become c (.connection { r.2 with removed := true }) q,
                Function.update s.downs c (s.downs c + 1)⟩
      else
        (s.owners.poller.apply c .remove).map fun q =>
          ⟨s.owners.become c (.connection { conn with removed := true }) q, s.downs⟩
  | _ => none

/-- The loop of ~TcpServer over connections_; the loop is the server's own, so each
connectDestroyed is run at once. -/
def destroyServer (s : State κ) : List (κ × List PublicCall) → Option (State κ)
  | [] => some s
  | (c, calls) :: rest => (connectDestroyed s c calls).bind fun t => destroyServer t rest

end Model

/-- What holds of an owner in every run: a connection that is not closed is registered once
it is established, and its callback has not been told of an end. -/
def Sound (p : Poller κ) (c : κ) (downs : Nat) : Owner → Prop
  | .unborn => downs = 0
  | .connection conn => conn.closed = false ∧ conn.removed = false →
      downs = 0 ∧ conn.state ≠ .kDisconnected ∧ (conn.state = .kConnecting ∨ p.Registered c)
  | _ => True

structure Invariant (s : State κ) : Prop where
  consistent : s.owners.poller.Consistent
  sound : ∀ c, Sound s.owners.poller c (s.downs c) (s.owners.owner c)

theorem Sound.frame {p q : Poller κ} {c d : κ} {downs : Nat} {owner : Owner}
    (sound : Sound p d downs owner) (frame : Frame p c q) (different : d ≠ c) :
    Sound q d downs owner := by
  cases owner with
  | connection conn =>
      intro live
      obtain ⟨none, up, place⟩ := sound live
      refine ⟨none, up, ?_⟩
      rw [frame.registered d different]
      exact place
  | unborn | wakeup | timerQueue | acceptor | gone => exact sound

variable [DecidableEq κ] {s t : State κ}

theorem become_invariant (inv : Invariant s) (c : κ) (owner : Owner) (q : Poller κ)
    (downs : κ → Nat) (consistent : q.Consistent) (frame : Frame s.owners.poller c q)
    (others : ∀ d, d ≠ c → downs d = s.downs d) (sound : Sound q c (downs c) owner) :
    Invariant ⟨s.owners.become c owner q, downs⟩ := by
  refine ⟨consistent, fun d => ?_⟩
  show Sound q d (downs d) (Function.update s.owners.owner c owner d)
  by_cases same : d = c
  · subst same
    rw [Function.update_self]
    exact sound
  · rw [Function.update_of_ne same, others d same]
    exact (inv.sound d).frame frame same

/-- A function of a connection that is not its end. -/
theorem perform_sound (conn after : Connection) (p q : Poller κ) (c : κ) (downs : Nat)
    (call : ConnectionCall) (inv : p.Consistent) (sound : Sound p c downs (.connection conn))
    (allowed : conn.allowed call) (done : conn.perform p c call = some (q, after))
    (lives : call ≠ .handleClose) : Sound q c downs (.connection after) := by
  cases call with
  | connectEstablished =>
      obtain ⟨r, applied, same⟩ := Option.map_eq_some_iff.mp done
      cases same
      intro live
      obtain ⟨none, _⟩ := sound live
      exact ⟨none, by simp, .inr (interest_spec p c _ (by simp) inv q applied).2.2.1⟩
  | sendInLoop | handleWrite | startReadInLoop | stopReadInLoop =>
      rcases Connection.perform_interest done with ⟨applied, rfl⟩ | ⟨rfl, rfl⟩
      · intro live
        obtain ⟨none, state, _⟩ := sound live
        exact ⟨none, state, .inr (interest_spec p c _ (by simp) inv q applied).2.2.1⟩
      · exact sound
  | disconnecting =>
      cases done
      intro live
      obtain ⟨none, _, place⟩ := sound live
      refine ⟨none, by simp, .inr (place.resolve_left fun connecting => ?_)⟩
      rcases allowed with up | up <;> cases connecting.symm.trans up
  | storeDisconnecting =>
      cases done
      intro live
      obtain ⟨none, _, place⟩ := sound live
      exact ⟨none, by simp, .inr (place.resolve_left allowed)⟩
  | handleClose => exact absurd rfl lives
  | connectDestroyed =>
      obtain ⟨_, _, removed⟩ := Connection.perform_destroyed done
      exact fun live => absurd live.2 (by rw [removed]; decide)

omit [DecidableEq κ] in
theorem start_invariant (fds : κ → Int) (nonneg : ∀ c, 0 ≤ fds c) :
    Invariant (ConnectionCalls.start fds) :=
  ⟨create_consistent fds nonneg, fun _ => rfl⟩

/-- A step of the loop keeps the invariant, whatever the users have done. -/
theorem loop_invariant (fds : κ → Int) (inv : Invariant s) (label : ChannelTeardown.Label κ)
    (enabled : s.owners.Enabled fds label) (moved : next s (.loop label) = some t) :
    Invariant t := by
  obtain ⟨owners, stepped, rfl⟩ := Option.map_eq_some_iff.mp moved
  obtain ⟨c, owner, q, rfl, consistent, frame, action⟩ :=
    owners_acts fds s.owners owners label inv.consistent enabled stepped
  have sound := inv.sound c
  cases action with
  | created unborn =>
      rw [unborn] at sound
      exact become_invariant inv c _ q s.downs consistent frame (fun _ _ => rfl)
        fun _ => ⟨sound, by simp [Connection.create], .inl rfl⟩
  | plain other born quiet =>
      rw [countDown_of_ne s.downs label fun d => quiet d _]
      refine become_invariant inv c _ q s.downs consistent frame (fun _ _ => rfl) ?_
      cases owner with
      | unborn => exact absurd rfl born
      | connection conn => exact absurd rfl (other conn)
      | wakeup | timerQueue | acceptor | gone => trivial
  | @performed conn after call before allowed done =>
      rw [before] at sound
      by_cases closes : call = .handleClose
      · subst closes
        refine become_invariant inv c _ q _ consistent frame
          (fun d different => Function.update_of_ne different ..) ?_
        obtain ⟨_, _, same⟩ := Option.map_eq_some_iff.mp done
        cases same
        exact fun live => absurd live.1 (by simp)
      · rw [countDown_of_ne s.downs _ (by simpa using closes)]
        exact become_invariant inv c _ q s.downs consistent frame (fun _ _ => rfl)
          (perform_sound conn after _ q c _ call inv.consistent sound allowed done closes)

theorem next_invariant (fds : κ → Int) (inv : Invariant s) (label : ConnectionCalls.Label κ)
    (enabled : Enabled fds s label) (moved : next s label = some t) : Invariant t := by
  cases label with
  | loop label => exact loop_invariant fds inv label enabled.2 moved
  | user c call =>
      obtain ⟨conn, owner, given⟩ := enabled
      simp only [next, owner] at moved
      obtain ⟨⟨q, after⟩, called, rfl⟩ := Option.map_eq_some_iff.mp moved
      have sound := inv.sound c
      rw [owner] at sound
      unfold publicCall at called
      split at called
      · rename_i passes
        obtain ⟨final, frame⟩ := perform_frame conn after _ q c _ inv.consistent called
        exact become_invariant inv c _ q s.downs final frame (fun _ _ => rfl)
          (perform_sound conn after _ q c _ _ inv.consistent sound (passes.allowed given) called
            (by cases call <;> simp [PublicCall.inner]))
      · cases called
        exact become_invariant inv c _ _ s.downs inv.consistent (.refl _ c) (fun _ _ => rfl) sound

/-- The channel of a connection that is down: registered, without interest in writing, and
out of poll's sight as long as it does not read. -/
structure Parked (p : Poller κ) (c : κ) (reading : Bool) : Prop where
  consistent : p.Consistent
  here : p.Registered c
  events : (p.channel c).events = ⟨reading, false⟩
  negated : reading = false → ∃ pfd, p.slot c = some pfd ∧ pfd.fd = ignored (p.channel c).fd

/-- A change of the interest set that leaves no interest in writing. -/
theorem update_parked (p q : Poller κ) (c : κ) (events : Events) (inv : p.Consistent)
    (here : p.Registered c) (silent : events.write = false)
    (done : p.update c ((p.channel c).toChannel.update events) = some q) :
    Parked q c events.read ∧ Frame p c q := by
  obtain ⟨consistent, frame, registered, channel, fd, slot, negated⟩ :=
    update_spec p c ((p.channel c).toChannel.update events) rfl inv q done
  refine ⟨⟨consistent, registered, ?_, ?_⟩, frame⟩
  · rw [channel, ← silent]
    rfl
  · intro off
    have none : ((p.channel c).toChannel.update events).isNoneEvent = true := by
      rw [Channel.isNoneEvent_iff]
      show Events.mk events.read events.write = Events.kNoneEvent
      rw [off, silent]
      rfl
    refine ⟨_, slot, ?_⟩
    rw [channel]
    exact negated here none

theorem disableAll_parked (p : Poller κ) (c : κ) (inv : p.Consistent) (here : p.Registered c) :
    ∃ q, p.apply c .disableAll = some q ∧ Parked q c false ∧ Frame p c q := by
  obtain ⟨q, done⟩ := interest_total p c .disableAll (by simp) inv (.inl here)
  exact ⟨q, done, update_parked p q c Events.kNoneEvent inv here rfl done⟩

/-- startRead and stopRead on a connection that is down do what they say. -/
theorem read_parked (p : Poller κ) (c : κ) (conn : Connection) (reading on : Bool)
    (parked : Parked p c reading) :
    ∃ q after, conn.perform p c (if on then .startReadInLoop else .stopReadInLoop) =
        some (q, after) ∧ Parked q c on ∧ Frame p c q ∧ after.state = conn.state := by
  have reads : (p.channel c).isReading = reading := by rw [Channel.isReading, parked.events]
  have writes : (p.channel c).events.write = false := by rw [parked.events]
  cases on with
  | true =>
      by_cases turn : conn.reading = false ∨ (p.channel c).isReading = false
      · obtain ⟨q, done⟩ :=
          interest_total p c .enableReading (by simp) parked.consistent (.inl parked.here)
        have now := update_parked p q c { (p.channel c).events with read := true }
          parked.consistent parked.here writes done
        refine ⟨q, { conn with reading := true }, ?_, now.1, now.2, rfl⟩
        simp only [↓reduceIte, Connection.perform, turn, done, Option.map_some]
      · have already : reading = true := by
          rw [← reads]
          exact (Bool.not_eq_false _).mp fun off => turn (.inr off)
        refine ⟨p, conn, ?_, already ▸ parked, .refl p c, rfl⟩
        simp only [↓reduceIte, Connection.perform, turn]
  | false =>
      by_cases turn : conn.reading = true ∨ (p.channel c).isReading = true
      · obtain ⟨q, done⟩ :=
          interest_total p c .disableReading (by simp) parked.consistent (.inl parked.here)
        have now := update_parked p q c { (p.channel c).events with read := false }
          parked.consistent parked.here writes done
        refine ⟨q, { conn with reading := false }, ?_, now.1, now.2, rfl⟩
        simp only [Bool.false_eq_true, ↓reduceIte, Connection.perform, turn, done, Option.map_some]
      · have already : reading = false := by
          rw [← reads]
          exact (Bool.not_eq_true _).mp fun on => turn (.inr on)
        refine ⟨p, conn, ?_, already ▸ parked, .refl p c, rfl⟩
        simp only [Bool.false_eq_true, ↓reduceIte, Connection.perform, turn]

theorem publicCalls_parked (calls : List PublicCall) (p : Poller κ) (c : κ) (conn : Connection)
    (reading : Bool) (parked : Parked p c reading) (down : conn.state = .kDisconnected) :
    ∃ r, publicCalls conn p c calls = some r ∧ Parked r.1 c (switched reading calls) ∧
      Frame p c r.1 ∧ r.2.state = .kDisconnected := by
  induction calls generalizing p conn reading with
  | nil => exact ⟨(p, conn), rfl, parked, .refl p c, down⟩
  | cons call rest ih =>
      -- a read switch is carried out, any other call does nothing
      have turned : ∀ on : Bool, call = (if on then .startRead else .stopRead) →
          ∃ r, publicCalls conn p c (call :: rest) = some r ∧
            Parked r.1 c (switched on rest) ∧ Frame p c r.1 ∧ r.2.state = .kDisconnected := by
        intro on same
        obtain ⟨q, after, done, there, first, state⟩ := read_parked p c conn reading on parked
        obtain ⟨r, later, final, second, ended⟩ := ih q after on there (state.trans down)
        refine ⟨r, ?_, final, first.trans second, ended⟩
        have called : publicCall conn p c call = some (q, after) := by
          rw [← done, same]
          cases on <;> rfl
        rw [publicCalls, called, Option.bind_some]
        exact later
      have ignored : call ≠ .startRead ∧ call ≠ .stopRead →
          publicCalls conn p c (call :: rest) = publicCalls conn p c rest := by
        intro other
        rw [publicCalls, publicCall, if_neg (not_passes_of_down conn call down other),
          Option.bind_some]
      cases call with
      | startRead => exact turned true rfl
      | stopRead => exact turned false rfl
      | send pending =>
          rw [ignored (by simp)]
          exact ih p conn reading parked down
      | shutdown | forceClose | forceCLoseWithDelay =>
          rw [ignored (by simp)]
          exact ih p conn reading parked down

/-- Everything but the connection `c` is as before. -/
structure Untouched (s t : State κ) (c : κ) : Prop where
  owner : ∀ d, d ≠ c → t.owners.owner d = s.owners.owner d
  downs : ∀ d, d ≠ c → t.downs d = s.downs d
  registered : ∀ d, d ≠ c → (t.owners.poller.Registered d ↔ s.owners.poller.Registered d)

omit [DecidableEq κ] in
theorem Untouched.live {c d : κ} (kept : Untouched s t c) (different : d ≠ c) (live : Live s d) :
    Live t d := by
  obtain ⟨conn, owner, rest⟩ := live
  exact ⟨conn, (kept.owner d different).trans owner, rest⟩

omit [DecidableEq κ] in
theorem Untouched.ready {c d : κ} (kept : Untouched s t c) (different : d ≠ c)
    (calls : List PublicCall) : Ready t d calls ↔ Ready s d calls := by
  rw [Ready, Ready, kept.owner d different]

omit [DecidableEq κ] in
theorem Untouched.finished {c d : κ} (kept : Untouched s t c) (different : d ≠ c) :
    Finished t d ↔ Finished s d := by
  rw [Finished, Finished, kept.owner d different, kept.downs d different,
    kept.registered d different]

theorem become_untouched (c : κ) (owner : Owner) (q : Poller κ) (downs : κ → Nat)
    (frame : Frame s.owners.poller c q) (others : ∀ d, d ≠ c → downs d = s.downs d) :
    Untouched s ⟨s.owners.become c owner q, downs⟩ c where
  owner _ different := Function.update_of_ne different ..
  downs := others
  registered := frame.registered

/-- A channel that reads cannot be removed. -/
theorem Parked.no_remove {p : Poller κ} {c : κ} (parked : Parked p c true) :
    p.apply c .remove = none := by
  have busy : (p.channel c).toChannel.remove = none := by
    rw [Channel.remove, Channel.isNoneEvent, parked.events]
    rfl
  rw [apply, remove, busy, Option.bind_none]

/-- connectDestroyed on a connection that is up: it completes when the callback leaves
reading off, and then the connection is finished. -/
theorem connectDestroyed_connected (inv : Invariant s) (c : κ) (calls : List PublicCall)
    (conn : Connection) (owner : s.owners.owner c = .connection conn)
    (open_ : conn.closed = false ∧ conn.removed = false) (up : conn.state = .kConnected) :
    (switched false calls = true ∧ connectDestroyed s c calls = none) ∨
    ∃ t, switched false calls = false ∧ connectDestroyed s c calls = some t ∧ Invariant t ∧
      Untouched s t c ∧ Finished t c := by
  have sound := inv.sound c
  rw [owner] at sound
  obtain ⟨none, _, place⟩ := sound open_
  have here : s.owners.poller.Registered c :=
    place.resolve_left fun connecting => by cases connecting.symm.trans up
  obtain ⟨p, disabled, parked, first⟩ := disableAll_parked _ c inv.consistent here
  obtain ⟨r, called, left, second, down⟩ :=
    publicCalls_parked calls p c { conn with state := .kDisconnected } false parked rfl
  unfold connectDestroyed
  simp only [owner, up, ↓reduceIte, disabled, Option.bind_some, called]
  cases reads : switched false calls with
  | true =>
      rw [reads] at left
      exact .inl ⟨rfl, by rw [left.no_remove, Option.map_none]⟩
  | false =>
      rw [reads] at left
      have quiet : Quiet r.1 c :=
        ⟨left.here, (Channel.isNoneEvent_iff _).mpr left.events, left.negated rfl⟩
      obtain ⟨q, removed, consistent, third, detached, _⟩ :=
        remove_detached r.1 c left.consistent quiet
      have frame := (first.trans second).trans third
      have others : ∀ d, d ≠ c →
          Function.update s.downs c (s.downs c + 1) d = s.downs d :=
        fun d different => Function.update_of_ne different ..
      refine .inr ⟨_, rfl, by rw [removed, Option.map_some], ?_, ?_, ?_⟩
      · exact become_invariant inv c _ q _ consistent frame others
          fun live => absurd live.2 (by simp)
      · exact become_untouched c _ q _ frame others
      · refine ⟨_, Function.update_self .., down, detached.absent, ?_⟩
        show Function.update s.downs c (s.downs c + 1) c = 1
        rw [Function.update_self, none]

/-- connectDestroyed on a connection that is closing leaves its state as it is. -/
theorem connectDestroyed_closing (inv : Invariant s) (c : κ) (calls : List PublicCall)
    (conn : Connection) (owner : s.owners.owner c = .connection conn)
    (other : conn.state ≠ .kConnected) (alive : conn.state ≠ .kDisconnected)
    (done : connectDestroyed s c calls = some t) :
    Invariant t ∧ Untouched s t c ∧ ¬ Finished t c := by
  unfold connectDestroyed at done
  simp only [owner, other, ↓reduceIte] at done
  obtain ⟨q, removed, rfl⟩ := Option.map_eq_some_iff.mp done
  obtain ⟨consistent, frame⟩ := apply_spec _ c _ inv.consistent q removed
  refine ⟨?_, become_untouched c _ q _ frame fun _ _ => rfl, ?_⟩
  · exact become_invariant inv c _ q _ consistent frame (fun _ _ => rfl)
      fun live => absurd live.2 (by simp)
  · rintro ⟨after, there, down, _⟩
    rw [show (s.owners.become c (.connection { conn with removed := true }) q).owner c = _ from
      Function.update_self .., Owner.connection.injEq] at there
    rw [← there] at down
    exact alive down

/-- What connectDestroyed does to one live connection. -/
theorem connectDestroyed_spec (inv : Invariant s) (c : κ) (calls : List PublicCall)
    (live : Live s c) :
    (Ready s c calls → ∃ t, connectDestroyed s c calls = some t) ∧
    ∀ t, connectDestroyed s c calls = some t →
      Invariant t ∧ Untouched s t c ∧ (Finished t c ↔ Ready s c calls) := by
  obtain ⟨conn, owner, open_, unremoved, given⟩ := live
  have sound := inv.sound c
  rw [owner] at sound
  have alive := (sound ⟨open_, unremoved⟩).2.1
  have state : Ready s c calls → conn.state = .kConnected := by
    rintro ⟨⟨conn', owner', up⟩, _⟩
    rw [owner, Owner.connection.injEq] at owner'
    rw [owner']
    exact up
  by_cases up : conn.state = .kConnected
  · rcases connectDestroyed_connected inv c calls conn owner ⟨open_, unremoved⟩ up with
      ⟨reads, fails⟩ | ⟨t, reads, done, kept, untouched, finished⟩
    · refine ⟨fun ready => ?_, fun t done => ?_⟩
      · rw [ready.2] at reads
        cases reads
      · rw [fails] at done
        cases done
    · refine ⟨fun _ => ⟨t, done⟩, fun u made => ?_⟩
      obtain rfl := Option.some.inj (done.symm.trans made)
      exact ⟨kept, untouched, iff_of_true finished ⟨⟨conn, owner, up⟩, reads⟩⟩
  · refine ⟨fun ready => absurd (state ready) up, fun t done => ?_⟩
    obtain ⟨kept, untouched, unfinished⟩ :=
      connectDestroyed_closing inv c calls conn owner up alive done
    exact ⟨kept, untouched, iff_of_false unfinished fun ready => up (state ready)⟩

/-- The loop leaves the connections it does not list as they are. -/
theorem destroyServer_finished (work : List (κ × List PublicCall)) (inv : Invariant s)
    (live : ∀ w ∈ work, Live s w.1) (distinct : (work.map Prod.fst).Nodup) (c : κ)
    (unlisted : c ∉ work.map Prod.fst) (done : destroyServer s work = some t) :
    Finished t c ↔ Finished s c := by
  induction work generalizing s with
  | nil =>
      cases done
      exact Iff.rfl
  | cons first rest ih =>
      obtain ⟨d, calls⟩ := first
      obtain ⟨u, made, later⟩ := Option.bind_eq_some_iff.mp done
      rw [List.map_cons, List.nodup_cons] at distinct
      rw [List.map_cons, List.mem_cons, not_or] at unlisted
      obtain ⟨kept, untouched, _⟩ :=
        (connectDestroyed_spec inv d calls (live _ (List.mem_cons_self ..))).2 u made
      have lives : ∀ w ∈ rest, Live u w.1 := by
        intro w member
        refine untouched.live ?_ (live w (List.mem_cons_of_mem _ member))
        intro same
        have listed : w.1 ∈ rest.map Prod.fst := List.mem_map_of_mem member
        rw [same] at listed
        exact distinct.1 listed
      rw [ih kept lives distinct.2 unlisted.2 later, untouched.finished unlisted.1]

theorem destroyServer_iff (work : List (κ × List PublicCall)) (inv : Invariant s)
    (live : ∀ w ∈ work, Live s w.1) (distinct : (work.map Prod.fst).Nodup) :
    (∃ t, destroyServer s work = some t ∧ ∀ w ∈ work, Finished t w.1) ↔
      ∀ w ∈ work, Ready s w.1 w.2 := by
  induction work generalizing s with
  | nil =>
      refine iff_of_true ⟨s, rfl, ?_⟩ ?_
      · exact fun _ member => by cases member
      · exact fun _ member => by cases member
  | cons first rest ih =>
      obtain ⟨c, calls⟩ := first
      rw [List.map_cons, List.nodup_cons] at distinct
      have different : ∀ w ∈ rest, w.1 ≠ c := by
        intro w member same
        have listed : w.1 ∈ rest.map Prod.fst := List.mem_map_of_mem member
        rw [same] at listed
        exact distinct.1 listed
      obtain ⟨total, spec⟩ :=
        connectDestroyed_spec inv c calls (live _ (List.mem_cons_self ..))
      rw [List.forall_mem_cons]
      constructor
      · rintro ⟨t, done, finished⟩
        obtain ⟨u, made, later⟩ := Option.bind_eq_some_iff.mp done
        obtain ⟨kept, untouched, ends⟩ := spec u made
        have lives : ∀ w ∈ rest, Live u w.1 := fun w member =>
          untouched.live (different w member) (live w (List.mem_cons_of_mem _ member))
        rw [List.forall_mem_cons] at finished
        refine ⟨ends.mp ?_, fun w member => ?_⟩
        · rw [← destroyServer_finished rest kept lives distinct.2 c distinct.1 later]
          exact finished.1
        · rw [← untouched.ready (different w member)]
          exact (ih kept lives distinct.2).mp ⟨t, later, finished.2⟩ w member
      · rintro ⟨ready, readies⟩
        obtain ⟨u, made⟩ := total ready
        obtain ⟨kept, untouched, ends⟩ := spec u made
        have lives : ∀ w ∈ rest, Live u w.1 := fun w member =>
          untouched.live (different w member) (live w (List.mem_cons_of_mem _ member))
        obtain ⟨t, later, finished⟩ := (ih kept lives distinct.2).mpr fun w member =>
          (untouched.ready (different w member) w.2).mpr (readies w member)
        refine ⟨t, by rw [destroyServer, made, Option.bind_some, later], ?_⟩
        rw [List.forall_mem_cons]
        refine ⟨?_, finished⟩
        rw [destroyServer_finished rest kept lives distinct.2 c distinct.1 later]
        exact ends.mpr ready

/-- ~TcpServer, from any reachable state with any live connections: it completes and leaves
every connection finished exactly when none of them has begun to close and no callback leaves
reading on. -/
theorem server_teardown_iff (fds : κ → Int) (nonneg : ∀ c, 0 ≤ fds c)
    (labels : List (ConnectionCalls.Label κ))
    (run : (ConnectionCalls.machine fds).Run (ConnectionCalls.start fds) labels s)
    (work : List (κ × List PublicCall)) (live : ∀ w ∈ work, Live s w.1)
    (distinct : (work.map Prod.fst).Nodup) :
    (∃ t, destroyServer s work = some t ∧ ∀ w ∈ work, Finished t w.1) ↔
      ∀ w ∈ work, Ready s w.1 w.2 := by
  have inv : Invariant s := by
    refine run.invariant ?_ (start_invariant fds nonneg)
    intro s label t inv enabled moved
    exact next_invariant fds inv label enabled moved
  exact destroyServer_iff work inv live distinct

/-- A connection with unsent output. -/
theorem server_teardown_pending :
    ∃ s, (ConnectionCalls.machine Int.ofNat).Run (ConnectionCalls.start Int.ofNat)
        [.loop (.construct 3 .connection), .loop (.call 3 .connectEstablished),
          .user 3 (.send true)] s ∧
      ∃ t, destroyServer s [(3, [.stopRead])] = some t ∧ Finished t 3 := by
  obtain ⟨s, run, owner⟩ : ∃ s,
      (ConnectionCalls.machine Int.ofNat).Run (ConnectionCalls.start Int.ofNat)
        [.loop (.construct 3 .connection), .loop (.call 3 .connectEstablished),
          .user 3 (.send true)] s ∧
      s.owners.owner 3 = .connection ⟨.kConnected, true, false, false⟩ :=
    ⟨_, .cons ⟨trivial, rfl, fun d lives => by cases lives⟩ rfl
      (.cons ⟨trivial, _, rfl, rfl⟩ rfl (.cons ⟨_, rfl, by decide⟩ rfl .nil)), rfl⟩
  have ready : Ready s 3 [.stopRead] := ⟨⟨_, owner, rfl⟩, rfl⟩
  have torn := (server_teardown_iff Int.ofNat Int.natCast_nonneg _ run [(3, [.stopRead])]
    (fun w member => by
      rw [List.mem_singleton.mp member]
      exact ⟨_, owner, rfl, rfl, by decide⟩) (by decide)).mpr (fun w member => by
      rw [List.mem_singleton.mp member]
      exact ready)
  obtain ⟨t, done, finished⟩ := torn
  exact ⟨s, run, t, done, finished _ (List.mem_singleton.mpr rfl)⟩

/-- A half-closed connection that waits for its peer: remove finds reading on. -/
theorem server_teardown_fails :
    ¬ ∀ (labels : List (ConnectionCalls.Label Nat)) (s : State Nat),
      (ConnectionCalls.machine Int.ofNat).Run (ConnectionCalls.start Int.ofNat) labels s →
      ∀ work : List (Nat × List PublicCall), (∀ w ∈ work, Live s w.1) →
        (work.map Prod.fst).Nodup →
        ∃ t, destroyServer s work = some t ∧ ∀ w ∈ work, Finished t w.1 := by
  intro always
  obtain ⟨s, run, owner, fails⟩ : ∃ s,
      (ConnectionCalls.machine Int.ofNat).Run (ConnectionCalls.start Int.ofNat)
        [.loop (.construct 3 .connection), .loop (.call 3 .connectEstablished),
          .user 3 .shutdown] s ∧
      s.owners.owner 3 = .connection ⟨.kDisconnecting, true, false, false⟩ ∧
      destroyServer s [(3, [])] = none :=
    ⟨_, .cons ⟨trivial, rfl, fun d lives => by cases lives⟩ rfl
      (.cons ⟨trivial, _, rfl, rfl⟩ rfl (.cons ⟨_, rfl, by decide⟩ rfl .nil)), rfl, rfl⟩
  obtain ⟨t, done, _⟩ := always _ s run [(3, [])]
    (fun w member => by
      rw [List.mem_singleton.mp member]
      exact ⟨_, owner, rfl, rfl, by decide⟩) (by decide)
  rw [fails] at done
  cases done

end Tundra.ServerTeardown
