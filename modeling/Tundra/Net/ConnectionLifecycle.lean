import Tundra.Net.ConnectionBooks

set_option autoImplicit false

/- The life of a connection in a TcpServer: from newConnection to connectDestroyed,
whatever starts the closing and whatever user code does in between. -/
namespace Tundra.TcpServer

open Library (Machine)
open TcpConnection (Gentle Outcome)

theorem readFd_some (b : Buffer) (input : Option Bytes) : ∃ read, b.readFd input = some read := by
  cases input with
  | none => exact ⟨b, rfl⟩
  | some data =>
      obtain ⟨read, done, _⟩ := b.readFd_content data
      exact ⟨read, done⟩

/-- A change of the input buffer alone. -/
theorem input_gentle (c : TcpConnection) (input : Buffer) :
    Gentle c ({ c with inputBuffer := input }, []) :=
  Gentle.of_same rfl rfl rfl (by simp)

theorem messageCallback_touched (s : State) (i : Nat) (answers : State.Answers) :
    ∃ t, s.messageCallback i answers = some t ∧ Touched s t := by
  obtain ⟨t, applied, first⟩ := apply_touched s i
    (fun c => some ({ c with inputBuffer := answers.inputLeft }, []))
    fun c => ⟨_, rfl, input_gentle c answers.inputLeft⟩
  obtain ⟨u, played, second⟩ := userCalls_touched t answers.onMessage
  refine ⟨u, ?_, first.trans second⟩
  rw [State.messageCallback, applied, Option.bind_some, played]

/-- The read callback of a connection that is up; an end of file closes it. -/
theorem handleRead_survives {s : State} {i : Nat} {o : ConnectionObject} (inv : Invariant s)
    (answers : State.Answers) (found : s.objects[i]? = some o) (up : o.conn.Up)
    (handled : i ∉ s.activeChannels.map Prod.fst) :
    Survives (s.handleRead i answers) s.objects.length := by
  obtain ⟨t, applied, touched⟩ := apply_touched s i
    (fun c => (c.inputBuffer.readFd answers.input).map fun read =>
      ({ c with inputBuffer := read }, [])) (by
      intro c
      obtain ⟨read, done⟩ := readFd_some c.inputBuffer answers.input
      exact ⟨_, by rw [done, Option.map_some], input_gentle c read⟩)
  have kept : Invariant t := Holds.touched inv touched
  simp only [State.handleRead, found, applied, Option.bind_some, ← touched.size]
  split
  · exact kept.survives ⟨t, rfl, Touched.refl t⟩
  · obtain ⟨p, there, eased⟩ := touched.objects i o found
    exact handleClose_survives kept answers.onConnection there (eased.up up)
      (touched.active ▸ handled)
  · exact kept.survives (messageCallback_touched t i answers)

/-- The error and the write callback change little, in whatever state. -/
theorem callback_touched (s : State) (i : Nat) (answers : State.Answers) (callback : Callback)
    (mild : callback = .error ∨ callback = .write) :
    ∃ t, s.callback i answers callback = some t ∧ Touched s t := by
  rcases mild with rfl | rfl
  · exact ⟨s, rfl, Touched.refl s⟩
  · exact apply_touched s i _ fun c => c.handleWrite_gentle answers.written

theorem callbacks_touched (s : State) (i : Nat) (answers : State.Answers) (cs : List Callback)
    (mild : ∀ c ∈ cs, c = .error ∨ c = .write) :
    ∃ t, s.callbacks i answers cs = some t ∧ Touched s t := by
  induction cs generalizing s with
  | nil => exact ⟨s, rfl, Touched.refl s⟩
  | cons c rest ih =>
      rw [List.forall_mem_cons] at mild
      obtain ⟨t, called, first⟩ := callback_touched s i answers c mild.1
      obtain ⟨u, played, later⟩ := ih t mild.2
      exact ⟨u, by rw [State.callbacks, called, Option.bind_some, played], first.trans later⟩

theorem callbacks_append (s : State) (i : Nat) (answers : State.Answers)
    (front back : List Callback) :
    s.callbacks i answers (front ++ back) =
      (s.callbacks i answers front).bind fun t => t.callbacks i answers back := by
  induction front generalizing s with
  | nil => rfl
  | cons c rest ih =>
      simp only [List.cons_append, State.callbacks, Option.bind_assoc, ih]

/-- Callbacks that do not close the connection. -/
def mild (cs : List Callback) : Prop := ∀ c ∈ cs, c = .error ∨ c = .write

theorem mild_ifs (error write : Bool) :
    mild ((if error then [.error] else []) ++ if write then [.write] else []) := by
  intro c member
  cases error <;> cases write <;> simp at member <;> simp [member]

/-- The close and the read callback are never called for the same report. -/
theorem handleEventWithGuard_cases (r : Revents) (clean : r.cleanHangUp = true) :
    (∃ rest, r.handleEventWithGuard = .close :: rest ∧ mild rest) ∨
    (∃ front back, r.handleEventWithGuard = front ++ .read :: back ∧ mild front ∧ mild back) ∨
    mild r.handleEventWithGuard := by
  have errors := mild_ifs (r.pollerr || r.pollnval) false
  have writes := mild_ifs false r.pollout
  have both := mild_ifs (r.pollerr || r.pollnval) r.pollout
  unfold Revents.handleEventWithGuard
  by_cases hangUp : (r.pollhup && !r.pollin) = true
  · have noRead : ¬ (r.pollin || r.pollpri || r.pollrdhup) = true := by
      simp only [Revents.cleanHangUp, hangUp, Bool.not_true, Bool.false_or] at clean
      simp only [Bool.and_eq_true, Bool.not_eq_true'] at hangUp
      simpa [hangUp.2] using clean
    rw [if_pos hangUp, if_neg noRead, List.append_nil, List.append_assoc]
    exact Or.inl ⟨_, rfl, both⟩
  · rw [if_neg hangUp, List.nil_append]
    by_cases reads : (r.pollin || r.pollpri || r.pollrdhup) = true
    · rw [if_pos reads, List.append_assoc]
      refine Or.inr (Or.inl ⟨_, _, rfl, ?_, ?_⟩)
      · simpa using errors
      · simpa using writes
    · rw [if_neg reads, List.append_nil]
      exact Or.inr (Or.inr both)

/-- Handling the report of a connection that is up. -/
theorem handleEvent_survives {s : State} {i : Nat} {o : ConnectionObject} (inv : Invariant s)
    (revents : Revents) (answers : State.Answers) (found : s.objects[i]? = some o)
    (up : o.conn.Up) (handled : i ∉ s.activeChannels.map Prod.fst)
    (clean : revents.cleanHangUp = true) :
    Survives (s.handleEvent i revents answers) s.objects.length := by
  unfold State.handleEvent
  rcases handleEventWithGuard_cases revents clean with
    ⟨rest, order, later⟩ | ⟨front, back, order, early, late⟩ | only
  · rw [order, State.callbacks]
    obtain ⟨t, closed, size, kept⟩ := handleClose_survives inv answers.onConnection found up handled
    rw [State.callback, closed, Option.bind_some, ← size]
    exact kept.survives (callbacks_touched t i answers rest later)
  · obtain ⟨t, called, touched⟩ := callbacks_touched s i answers front early
    obtain ⟨p, there, eased⟩ := touched.objects i o found
    have before : Invariant t := Holds.touched inv touched
    obtain ⟨u, read, size, kept⟩ :=
      handleRead_survives before answers there (eased.up up) (touched.active ▸ handled)
    rw [order, callbacks_append, called, Option.bind_some, State.callbacks, State.callback, read,
      Option.bind_some, ← touched.size, ← size]
    exact kept.survives (callbacks_touched u i answers back late)
  · exact inv.survives (callbacks_touched s i answers _ only)

/-- The loop after it has taken the first functor of the batch. -/
def State.popped (s : State) (rest : List (Nat × Functor)) : State := { s with functors := rest }

theorem popped_destroyQueued (s : State) (i j : Nat) (f : Functor) (rest : List (Nat × Functor))
    (batch : s.functors = (i, f) :: rest) :
    s.destroyQueued j =
      (s.popped rest).destroyQueued j +
        if (i, f) = (j, Functor.connectDestroyed) then 1 else 0 := by
  simp only [State.destroyQueued, State.popped, batch, List.cons_append, List.count_cons,
    beq_iff_eq]

theorem popped_invariant {s : State} {i : Nat} {f : Functor} {rest : List (Nat × Functor)}
    (inv : Invariant s) (batch : s.functors = (i, f) :: rest) (other : f ≠ .connectDestroyed) :
    Invariant (s.popped rest) := by
  have queued : ∀ j, (s.popped rest).destroyQueued j = s.destroyQueued j := by
    intro j
    rw [popped_destroyQueued s i j f rest batch, if_neg (by simp [other]), Nat.add_zero]
  refine { inv with objects := ?_, unborn := ?_, batch := ?_ }
  · intro j o found
    obtain ⟨a, settled, fits⟩ := inv.objects j o found
    exact ⟨a, settled, { fits with destroys := by rw [queued, fits.destroys] }⟩
  · intro j beyond
    rw [queued]
    exact inv.unborn j beyond
  · intro _
    exact inv.batch (by rw [batch]; simp)

/-- A queued connectDestroyed belongs to a connection that is down, and it is the only
one for it. -/
theorem popped_allBut {s : State} {i : Nat} {rest : List (Nat × Functor)} (inv : Invariant s)
    (batch : s.functors = (i, .connectDestroyed) :: rest) :
    i < s.objects.length ∧ AllBut (s.popped rest) i ⟨false, false, 1, 1, 1, 0⟩ := by
  have queued := popped_destroyQueued s i i .connectDestroyed rest batch
  rw [if_pos rfl] at queued
  have inside : i < s.objects.length := by
    by_contra beyond
    have none := inv.unborn i (Nat.le_of_not_lt beyond)
    omega
  have others : ∀ j, j ≠ i → (s.popped rest).destroyQueued j = s.destroyQueued j := by
    intro j different
    rw [popped_destroyQueued s i j .connectDestroyed rest batch,
      if_neg (by simp [Ne.symm different]), Nat.add_zero]
  refine ⟨inside, { inv with objects := ?_, unborn := ?_, batch := ?_ }⟩
  · intro j o found
    obtain ⟨a, settled, fits⟩ := inv.objects j o found
    by_cases same : j = i
    · subst same
      rcases settled with rfl | rfl
      · have none : o.calls.count .connectDestroyed + s.destroyQueued j = 0 := fits.destroys
        omega
      · have one : o.calls.count .connectDestroyed + s.destroyQueued j = 1 := fits.destroys
        have left : o.calls.count .connectDestroyed + (s.popped rest).destroyQueued j = 0 := by
          omega
        exact ⟨⟨false, false, 1, 1, 1, 0⟩, by rw [if_pos rfl], { fits with destroys := left }⟩
    · refine ⟨a, by rwa [if_neg same], { fits with destroys := ?_ }⟩
      rw [others j same, fits.destroys]
  · intro j beyond
    have above : s.objects.length ≤ j := beyond
    rw [others j (by omega)]
    exact inv.unborn j above
  · intro _
    exact inv.batch (by rw [batch]; simp)

/-- The assertion of Channel::remove holds for a connection that is down. -/
theorem removeChannel_gentle (c : TcpConnection) (down : c.Down) :
    ∃ r, c.removeChannel = some r ∧ Gentle c r := by
  have none : c.channel.isNoneEvent = true := (c.channel.isNoneEvent_iff).mpr down.2
  refine ⟨({ c with channel := { c.channel with addedToLoop := false } }, [.removeChannel]), ?_, ?_⟩
  · rw [TcpConnection.removeChannel, Channel.remove, if_pos none, Option.map_some]
  · exact Gentle.of_same rfl rfl rfl (by simp)

theorem connectDestroyed_survives {s : State} {i : Nat}
    (allBut : AllBut s i ⟨false, false, 1, 1, 1, 0⟩) (inside : i < s.objects.length)
    (calls : List UserCall) : Survives (s.connectDestroyed i calls) s.objects.length := by
  obtain ⟨o, found, _⟩ := allBut.fits inside
  have noted := note_allBut allBut o found fun _ => .connectDestroyed
  have size : (s.note i fun _ => .connectDestroyed).objects.length = s.objects.length := by
    rw [State.note, List.length_modify]
  obtain ⟨p, there, fits⟩ := noted.fits (size ▸ inside)
  have down : p.conn.Down := fits.down rfl
  have inv : Invariant (s.note i fun _ => .connectDestroyed) := noted.settle (Or.inr rfl)
  have removed := apply_touched_at (s.note i fun _ => .connectDestroyed) i
    TcpConnection.removeChannel (by
      intro q same
      rw [there] at same
      cases same
      exact removeChannel_gentle p.conn down)
  have notUp : ¬ p.conn.state = .kConnected := by simp [down.1]
  have survives := inv.survives removed
  simp only [State.connectDestroyed, there, notUp, if_false, Option.bind_some]
  rwa [size] at survives

theorem runFunctor_survives {s : State} {i : Nat} {f : Functor} {rest : List (Nat × Functor)}
    (inv : Invariant s) (batch : s.functors = (i, f) :: rest) (around : State.Surroundings) :
    Survives ((s.popped rest).runFunctor i around f) s.objects.length := by
  by_cases last : f = .connectDestroyed
  · subst last
    obtain ⟨inside, allBut⟩ := popped_allBut inv batch
    exact connectDestroyed_survives allBut inside around.calls
  · have kept := popped_invariant inv batch last
    cases f with
    | writeCompleteCallback => exact kept.survives (userCalls_touched _ around.calls)
    | highWaterMarkCallback len => exact kept.survives (userCalls_touched _ around.calls)
    | sendInLoop bound =>
        exact kept.survives (apply_touched _ i _ fun c =>
          c.runSend_gentle around.mem around.behind around.written bound)
    | shutdownInLoop =>
        exact kept.survives (apply_touched _ i _ fun c => ⟨_, rfl, c.shutdownInLoop_gentle⟩)
    | forceCLoseInLoop =>
        have quiet : (s.popped rest).activeChannels = [] := inv.batch (by rw [batch]; simp)
        simp only [State.runFunctor, State.forceCLoseInLoop]
        split
        · exact kept.survives ⟨_, rfl, Touched.refl _⟩
        · rename_i o found
          split
          · rename_i up
            exact handleClose_survives kept around.calls found up (by rw [quiet]; simp)
          · exact kept.survives ⟨_, rfl, Touched.refl _⟩
    | connectDestroyed => exact absurd rfl last

/-- Numbers that an int can hold give different names: nothing of the name is cut off
in the array it is printed to. -/
theorem connName_injective (server : TcpServer) (m n : Nat) (short : server.ipPort.length ≤ 22)
    (small : m < 2 ^ 31) (little : n < 2 ^ 31)
    (same : server.connName m = server.connName n) : m = n := by
  have whole : ∀ k : Nat, k < 2 ^ 31 → server.connName k =
      server.name ++ (ascii "-" ++ server.ipPort ++ ascii "#" ++ decimal k) := by
    intro k bound
    have digits := decimal_length_le k 10 (by omega) (by omega)
    have dash : (ascii "-").length = 1 := rfl
    have hash : (ascii "#").length = 1 := rfl
    have plain : formatInt k = decimal k := by
      rw [formatInt, if_neg (by omega), Int.natAbs_natCast]
    rw [connName, plain, snprintf_of_fits]
    simp only [List.length_append, dash, hash]
    omega
  rw [whole m small, whole n little] at same
  have suffix := List.append_cancel_left (List.append_cancel_left same)
  exact decimal_injective m n suffix

theorem wrapInt_of_small (n : Nat) (small : n < 2 ^ 31) : wrapInt n = n := by
  rw [wrapInt]
  exact Int.bmod_eq_of_le (by omega) (by omega)

/-- The object newConnection adds, when connectionCallback_ is called for it. -/
def newcomer (s : State) (sockfd : Int) : ConnectionObject :=
  let conn := { TcpConnection.create (s.server.connName s.server.nextConnId) sockfd with
    writeCompleteCallback := s.server.writeCompleteCallback }
  (ConnectionObject.create conn).moveTo
    { conn with state := .kConnected, channel := conn.channel.enableReading }

/-- The state in which connectionCallback_ is called for the newcomer. -/
def joined (s : State) (sockfd : Int) : State :=
  { s.register sockfd with objects := s.objects ++ [newcomer s sockfd] }

theorem modify_length_append (objects : List ConnectionObject) (o : ConnectionObject)
    (f : ConnectionObject → ConnectionObject) :
    (objects ++ [o]).modify objects.length f = objects ++ [f o] := by
  induction objects with
  | nil => rfl
  | cons first rest ih => simpa using ih

theorem register_connectEstablished (s : State) (sockfd : Int) :
    (s.register sockfd).apply s.objects.length TcpConnection.connectEstablished =
      some (joined s sockfd) := by
  have last : (s.register sockfd).objects[s.objects.length]? = some (ConnectionObject.create
      { TcpConnection.create (s.server.connName s.server.nextConnId) sockfd with
        writeCompleteCallback := s.server.writeCompleteCallback }) := by
    simp [State.register]
  rw [State.apply, last]
  simp only [ConnectionObject.create, TcpConnection.connectEstablished, TcpConnection.create,
    ↓reduceIte, Option.map_some, TcpConnection.updateChannel, List.foldl_cons, List.foldl_nil,
    State.effect, State.setConn, State.register, modify_length_append, joined]
  rfl

/-- The counter has not wrapped around. -/
theorem Invariant.nextConnId_eq {s : State} (inv : Invariant s)
    (few : s.objects.length + 1 < 2 ^ 31) :
    s.server.nextConnId = (s.objects.length : Int) + 1 := by
  rw [inv.nextConnId]
  exact wrapInt_of_small _ few

theorem joined_newcomer (s : State) (sockfd : Int) :
    (joined s sockfd).objects[s.objects.length]? = some (newcomer s sockfd) :=
  List.getElem?_concat_length

/-- The new name is none of the old ones. -/
theorem newName_ne {s : State} (inv : Invariant s) (few : s.objects.length + 1 < 2 ^ 31) (i : Nat)
    (o : ConnectionObject) (found : s.objects[i]? = some o) :
    s.server.connName s.server.nextConnId ≠ o.conn.name := by
  obtain ⟨a, _, fits⟩ := inv.objects i o found
  have inside : i < s.objects.length := (List.getElem?_eq_some_iff.mp found).1
  rw [inv.nextConnId_eq few, fits.name]
  intro same
  have equal := connName_injective s.server (s.objects.length + 1) (i + 1) inv.ipPort few
    (by omega) same
  omega

theorem newcomer_fits {s : State} (inv : Invariant s) (sockfd : Int)
    (few : s.objects.length + 1 < 2 ^ 31) :
    Fits (joined s sockfd) s.objects.length (newcomer s sockfd) ⟨true, true, 0, 0, 0, 0⟩ where
  name := by
    rw [← inv.nextConnId_eq few]
    rfl
  history := by
    apply ConnectionObject.moveTo_history _ _ (ConnectionObject.create_history _)
    exact Nat.zero_le _
  live := fun _ => ⟨Or.inl rfl, rfl⟩
  down := fun dead => by cases dead
  listed := Library.OrderedMap.find_insert_self _ _ _
  ups := rfl
  downs := rfl
  closes := rfl
  destroys := by
    have none := inv.unborn s.objects.length (Nat.le_refl _)
    exact (Nat.zero_add _).trans none
  reported := fun _ => rfl

/-- newConnection up to the call of connectionCallback_. -/
theorem joined_allBut {s : State} (inv : Invariant s) (sockfd : Int)
    (few : s.objects.length + 1 < 2 ^ 31) :
    AllBut (joined s sockfd) s.objects.length ⟨true, true, 0, 0, 0, 0⟩ := by
  have size : (joined s sockfd).objects.length = s.objects.length + 1 := by
    simp [joined]
  have old : ∀ (i : Nat) (o : ConnectionObject), s.objects[i]? = some o →
      (joined s sockfd).objects[i]? = some o := by
    intro i o found
    exact List.getElem?_append_left (List.getElem?_eq_some_iff.mp found).1 |>.trans found
  have new := joined_newcomer s sockfd
  refine { inv with
    objects := ?_, entries := ?_, nextConnId := ?_, unborn := ?_, reports := ?_ }
  · intro i o found
    by_cases inside : i < s.objects.length
    · have there : s.objects[i]? = some o := by
        rw [← found]
        exact (List.getElem?_append_left inside).symm
      obtain ⟨a, settled, fits⟩ := inv.objects i o there
      refine ⟨a, by rwa [if_neg (by omega)], { fits with listed := ?_ }⟩
      have different := newName_ne inv few i o there
      exact (Library.OrderedMap.find_insert_of_ne _ _ different).trans fits.listed
    · have below := (List.getElem?_eq_some_iff.mp found).1
      have last : i = s.objects.length := by omega
      subst last
      rw [new] at found
      cases found
      exact ⟨_, by rw [if_pos rfl], newcomer_fits inv sockfd few⟩
  · intro name i held
    by_cases named : s.server.connName s.server.nextConnId = name
    · subst named
      rw [joined, State.register, Library.OrderedMap.find_insert_self] at held
      cases held
      exact ⟨_, new, rfl⟩
    · rw [joined, State.register, Library.OrderedMap.find_insert_of_ne _ _ named] at held
      obtain ⟨o, found, equal⟩ := inv.entries name i held
      exact ⟨o, old i o found, equal⟩
  · rw [size]
    change wrapInt (s.server.nextConnId + 1) = _
    rw [inv.nextConnId_eq few]
    rfl
  · intro i beyond
    rw [size] at beyond
    exact inv.unborn i (by omega)
  · intro report member
    have known := inv.reports report member
    rw [size]
    exact ⟨by omega, known.2⟩

theorem newConnection_survives {s : State} (inv : Invariant s) (sockfd : Int)
    (calls : List UserCall) (few : s.objects.length + 1 < 2 ^ 31) :
    Survives (s.newConnection sockfd calls) (s.objects.length + 1) := by
  obtain ⟨t, called, size, allBut⟩ := connectionCallback_allBut (joined_allBut inv sockfd few) _
    (joined_newcomer s sockfd) calls
  refine ⟨t, ?_, ?_, allBut.settle (Or.inl rfl)⟩
  · rw [State.newConnection, State.connectEstablished, register_connectEstablished,
      Option.bind_some, called]
  · rw [size]
    simp [joined]

/-- A channel with interest belongs to a connection that is up. -/
theorem reportable_up {s : State} (inv : Invariant s) (report : Nat × Revents)
    (reported : reportable s report = true) :
    ∃ o, s.objects[report.1]? = some o ∧ o.conn.Up ∧ report.2.cleanHangUp = true := by
  simp only [reportable, Bool.and_eq_true, Option.any_eq_true] at reported
  obtain ⟨⟨o, found, interested⟩, clean⟩ := reported
  obtain ⟨a, rfl | rfl, fits⟩ := inv.objects report.1 o found
  · exact ⟨o, found, (fits.live rfl).1, clean⟩
  · have none := (o.conn.channel.isNoneEvent_iff).mpr (fits.down rfl).2
    rw [none] at interested
    cases interested

theorem poll_invariant {s : State} (inv : Invariant s) (active : List (Nat × Revents))
    (noBatch : s.functors = []) (distinct : (active.map Prod.fst).Nodup)
    (reports : ∀ report ∈ active, reportable s report = true) :
    Invariant { s with activeChannels := active } := by
  refine { inv with objects := ?_, active := distinct, reports := ?_, batch := ?_ }
  · intro i o found
    obtain ⟨a, settled, fits⟩ := inv.objects i o found
    refine ⟨a, settled, { fits with reported := ?_ }⟩
    intro member
    obtain ⟨report, listed, rfl⟩ := List.mem_map.mp member
    obtain ⟨p, there, up, _⟩ := reportable_up inv report (reports report listed)
    obtain rfl : o = p := Option.some.inj (found.symm.trans there)
    rcases settled with rfl | rfl
    · rfl
    · exact absurd (fits.down rfl) up.not_down
  · intro report member
    obtain ⟨o, found, _, clean⟩ := reportable_up inv report (reports report member)
    exact ⟨(List.getElem?_eq_some_iff.mp found).1, clean⟩
  · intro some
    exact absurd noBatch some

/-- The loop goes on to the next reported channel, whose connection is still up. -/
theorem handled_invariant {s : State} {i : Nat} {revents : Revents}
    {rest : List (Nat × Revents)} (inv : Invariant s)
    (active : s.activeChannels = (i, revents) :: rest) :
    Invariant { s with activeChannels := rest } ∧ i ∉ rest.map Prod.fst ∧
      revents.cleanHangUp = true ∧ ∃ o, s.objects[i]? = some o ∧ o.conn.Up := by
  have distinct := inv.active
  have reports := inv.reports
  rw [active] at distinct reports
  rw [List.map_cons, List.nodup_cons] at distinct
  rw [List.forall_mem_cons] at reports
  refine ⟨{ inv with objects := ?_, active := distinct.2, reports := reports.2, batch := ?_ },
    distinct.1, reports.1.2, ?_⟩
  · intro j o found
    obtain ⟨a, settled, fits⟩ := inv.objects j o found
    refine ⟨a, settled, { fits with reported := ?_ }⟩
    intro member
    apply fits.reported
    rw [active]
    exact List.mem_cons_of_mem _ member
  · intro some
    have none := inv.batch some
    rw [active] at none
    cases none
  · have found := List.getElem?_eq_getElem reports.1.1
    obtain ⟨a, _, fits⟩ := inv.objects i _ found
    have live := fits.reported (by rw [active]; exact List.mem_cons_self)
    exact ⟨_, found, (fits.live live).1⟩

theorem doPendingFunctors_invariant {s : State} (inv : Invariant s)
    (noneActive : s.activeChannels = []) (noBatch : s.functors = []) :
    Invariant { s with functors := s.pendingFunctors, pendingFunctors := [] } := by
  have queued : ∀ i, State.destroyQueued
      { s with functors := s.pendingFunctors, pendingFunctors := [] } i = s.destroyQueued i := by
    intro i
    simp only [State.destroyQueued, noBatch, List.append_nil, List.nil_append]
  refine { inv with objects := ?_, unborn := ?_, batch := fun _ => noneActive }
  · intro i o found
    obtain ⟨a, settled, fits⟩ := inv.objects i o found
    exact ⟨a, settled, { fits with destroys := by rw [queued, fits.destroys] }⟩
  · intro i beyond
    rw [queued]
    exact inv.unborn i beyond

theorem fireTimer_touched (s : State) (i : Nat) (locked : Bool) :
    ∃ t, next s (.fireTimer i locked) = some t ∧ Touched s t := by
  have fired : Touched s { s with timers := s.timers.erase i } :=
    ⟨rfl, rfl, rfl, fun _ => rfl, rfl, (Touched.refl s).objects⟩
  cases locked with
  | false => exact ⟨_, rfl, fired⟩
  | true =>
      obtain ⟨t, applied, touched⟩ := apply_touched { s with timers := s.timers.erase i } i
        (fun c => some c.forceClose) fun c => ⟨_, rfl, c.forceClose_gentle⟩
      exact ⟨t, applied, fired.trans touched⟩

/-- No assertion fails in a step from a state with the invariant, and the step keeps
it, as long as the numbers of the connections do not run out. -/
theorem next_survives (s : State) (label : Label) (inv : Invariant s)
    (enabled : Enabled s label)
    (few : s.objects.length + (if label.isNewConnection then 1 else 0) < 2 ^ 31) :
    Survives (next s label)
      (s.objects.length + if label.isNewConnection then 1 else 0) := by
  cases label with
  | newConnection sockfd calls => exact newConnection_survives inv sockfd calls few
  | poll active =>
      obtain ⟨_, noBatch, distinct, reports⟩ := enabled
      exact ⟨_, rfl, rfl, poll_invariant inv active noBatch distinct reports⟩
  | handleEvent answers =>
      simp only [next]
      split
      · rename_i none
        exact absurd none enabled
      · rename_i i revents rest active
        obtain ⟨kept, handled, clean, o, found, up⟩ := handled_invariant inv active
        exact handleEvent_survives kept revents answers found up handled clean
  | doPendingFunctors =>
      exact ⟨_, rfl, rfl, doPendingFunctors_invariant inv enabled.1 enabled.2⟩
  | runFunctor around =>
      simp only [next]
      split
      · rename_i none
        exact absurd none enabled
      · rename_i i f rest batch
        exact runFunctor_survives inv batch around
  | fireTimer i locked => exact inv.survives (fireTimer_touched s i locked)
  | call call => exact inv.survives (userCall_touched s call)

theorem started_invariant (listenAddr : InetAddress) (name : Bytes)
    (writeCompleteCallback : Bool) :
    Invariant (started listenAddr name writeCompleteCallback) where
  objects := fun i o found => by simp [started] at found
  entries := fun name i held => by
    rw [show (started listenAddr _ writeCompleteCallback).server.connections =
      Library.OrderedMap.empty from rfl, Library.OrderedMap.find_empty] at held
    cases held
  nextConnId := by
    change (1 : Int) = wrapInt 1
    decide
  ipPort := listenAddr.toIpPort_length
  unborn := fun _ _ => rfl
  active := List.nodup_nil
  reports := fun report member => by cases member
  batch := fun some => absurd rfl some

/-- The number of connections is the number of newConnection calls. -/
theorem run_invariant (listenAddr : InetAddress) (name : Bytes) (writeCompleteCallback : Bool)
    (labels : List Label) (s : State)
    (run : machine.Run (started listenAddr name writeCompleteCallback) labels s)
    (few : labels.countP Label.isNewConnection < 2 ^ 31) :
    s.objects.length = labels.countP Label.isNewConnection ∧ Invariant s := by
  induction run with
  | nil => exact ⟨rfl, started_invariant listenAddr name writeCompleteCallback⟩
  | @snoc labels t u label front allowed moved ih =>
      have total : (labels ++ [label]).countP Label.isNewConnection =
          labels.countP Label.isNewConnection + if label.isNewConnection then 1 else 0 := by
        rw [List.countP_append, List.countP_singleton]
      rw [total] at few ⊢
      obtain ⟨size, inv⟩ := ih (by omega)
      obtain ⟨v, done, grown, kept⟩ := next_survives t label inv allowed (by rw [size]; exact few)
      obtain rfl : u = v := Option.some.inj (moved.symm.trans done)
      rw [← size]
      exact ⟨grown, kept⟩

/-- connections_ holds exactly the connections that are up, each under its name. -/
theorem Invariant.find_iff {s : State} (inv : Invariant s) (name : Bytes) (i : Nat) :
    s.server.connections.find name = some i ↔
      ∃ o, s.objects[i]? = some o ∧ o.conn.name = name ∧ o.conn.Up := by
  constructor
  · intro held
    obtain ⟨o, found, named⟩ := inv.entries name i held
    obtain ⟨a, rfl | rfl, fits⟩ := inv.objects i o found
    · exact ⟨o, found, named, (fits.live rfl).1⟩
    · have absent := fits.listed
      rw [named, held] at absent
      cases absent
  · rintro ⟨o, found, named, up⟩
    have listed := (inv.open_of_up found up).listed
    rw [named] at listed
    exact listed

theorem Invariant.calls {s : State} (inv : Invariant s) (i : Nat) (o : ConnectionObject)
    (found : s.objects[i]? = some o) :
    o.calls.count (.connectionCallback true) = 1 ∧
      o.calls.count (.connectionCallback false) ≤ 1 ∧ o.calls.count .closeCallback ≤ 1 ∧
      o.calls.count .connectDestroyed ≤ 1 := by
  obtain ⟨a, settled, fits⟩ := inv.objects i o found
  have ups := fits.ups
  have downs := fits.downs
  have closes := fits.closes
  have destroys := fits.destroys
  rcases settled with rfl | rfl
  · simp only [Account.open] at ups downs closes destroys
    omega
  · simp only [Account.gone] at ups downs closes destroys
    omega

/-- In every run with fewer than 2^31 new connections: no step that can come next
fails an assertion; the state_ of every connection has only moved forward; its
callbacks have been called as often as they should; and connections_ holds exactly
the connections in kConnected or kDisconnecting. -/
theorem connection_lifecycle (listenAddr : InetAddress) (name : Bytes)
    (writeCompleteCallback : Bool) (labels : List Label) (s : State)
    (run : machine.Run (started listenAddr name writeCompleteCallback) labels s)
    (few : labels.countP Label.isNewConnection < 2 ^ 31) :
    (∀ label, Enabled s label → (labels ++ [label]).countP Label.isNewConnection < 2 ^ 31 →
      ∃ t, next s label = some t) ∧
    (∀ (i : Nat) (o : ConnectionObject), s.objects[i]? = some o →
      o.states.Pairwise (fun a b => a.rank ≤ b.rank) ∧
      o.states.getLast? = some o.conn.state ∧
      o.calls.count (.connectionCallback true) = 1 ∧
      o.calls.count (.connectionCallback false) ≤ 1 ∧
      o.calls.count .closeCallback ≤ 1 ∧ o.calls.count .connectDestroyed ≤ 1) ∧
    ∀ (connName : Bytes) (i : Nat), s.server.connections.find connName = some i ↔
      ∃ o, s.objects[i]? = some o ∧ o.conn.name = connName ∧
        (o.conn.state = .kConnected ∨ o.conn.state = .kDisconnecting) := by
  obtain ⟨size, inv⟩ := run_invariant listenAddr name writeCompleteCallback labels s run few
  refine ⟨?_, ?_, inv.find_iff⟩
  · intro label enabled bounded
    rw [List.countP_append, List.countP_singleton, ← size] at bounded
    obtain ⟨t, done, _⟩ := next_survives s label inv enabled bounded
    exact ⟨t, done⟩
  · intro i o found
    obtain ⟨a, _, fits⟩ := inv.objects i o found
    exact ⟨fits.history.forward, fits.history.latest, inv.calls i o found⟩

/-- What the process answers while connection 0 is read to its end and connection 1
hangs up. The down callback of connection 0 forces connection 1 to close. -/
def hangingUp : State.Answers where
  input := some []
  written := .accepted 0
  onConnection := [.forceClose 1]
  onMessage := []
  inputLeft := Buffer.fresh

def plain : State.Surroundings := ⟨letters, fun _ => 0, .accepted 0, []⟩

/-- Two connections are closed three times over: by forceClose, by a delayed
forceClose and by what poll reports. -/
def threefold : List Label :=
  [.newConnection 5 [], .newConnection 6 [.forceCLoseWithDelay 1], .call (.forceClose 0),
    .poll [(0, ⟨true, false, false, false, false, false, false⟩),
      (1, ⟨false, false, true, false, true, false, false⟩)],
    .handleEvent hangingUp, .handleEvent hangingUp, .fireTimer 1 true, .doPendingFunctors,
    .runFunctor plain, .runFunctor plain, .runFunctor plain, .runFunctor plain]

theorem connection_lifecycle_threefold :
    ∃ s, machine.Run (started ⟨(127, 0, 0, 1), 80⟩ (ascii "tundra") false) threefold s ∧
      s.objects.map (·.states.getLast?) = [some .kDisconnected, some .kDisconnected] ∧
      s.server.connections.entries = [] ∧
      ∀ label, Enabled s label →
        (threefold ++ [label]).countP Label.isNewConnection < 2 ^ 31 →
        ∃ t, next s label = some t := by
  obtain ⟨s, run, seen⟩ := machine.exists_run_of_play
    (started ⟨(127, 0, 0, 1), 80⟩ (ascii "tundra") false) threefold
    (fun s => (s.objects.map (·.states.getLast?), s.server.connections.entries))
    ([some .kDisconnected, some .kDisconnected], []) (by decide +kernel)
  rw [Prod.mk.injEq] at seen
  have life := connection_lifecycle _ _ _ threefold s run (by decide)
  exact ⟨s, run, seen.1, seen.2, life.1⟩

end Tundra.TcpServer
