import Tundra.Http.Pages

set_option autoImplicit false

/- A session between a client and the server over one connection: the client sends a request
when it has the response to the one before, the server's loop reads and writes what the
kernel gives and takes, and the bytes arrive in pieces. -/
namespace Tundra.Session

open Library TcpConnection HttpServer

/-- `inFlight` are the bytes of the client that the server has not read. The first `seen`
bytes of those the server has written have reached the client, which has taken the `answers`
off them and has `unread` left; `ended` tells whether it has seen the end of the stream. -/
structure State where
  server : Rejection.State
  asked : List Request
  inFlight : Bytes
  seen : Nat
  unread : Bytes
  ended : Bool
  answers : List Message

inductive Label
  | request (r : Request)
  | connectEstablished
  | handleRead (n : Nat) (receiveTime : TimeStamp) (behind : Nat → UInt8) (result : WriteResult)
  | handleWrite (result : WriteResult)
  | receive (n : Nat)
  | receiveEnd
  | takeAnswer

/-- The answer says that no other one will come. -/
def isLast (m : Message) : Bool :=
  m.headers.find (ascii "Connection") = some (ascii "close")

def created (name : Bytes) (sockfd : Int) (writeComplete highWater : Bool) (mark : Nat) :
    State where
  server := Rejection.created name sockfd writeComplete highWater mark
  asked := []
  inFlight := []
  seen := 0
  unread := []
  ended := false
  answers := []

/-- A read brings any part of what is in flight. -/
def Enabled (s : State) : Label → Prop
  | .request _ => s.answers.length = s.asked.length ∧ ∀ m ∈ s.answers, isLast m = false
  | .connectEstablished => s.server.conn.state = .kConnecting
  | .handleRead n _ _ _ => s.server.conn.state ≠ .kConnecting ∧ 0 < n ∧
      n ≤ s.inFlight.length ∧ n ≤ s.server.conn.inputBuffer.offered
  | .handleWrite _ => True
  | .receive n => 0 < n ∧ s.seen + n ≤ s.server.conn.sent.length
  | .receiveEnd => 0 < s.server.conn.halfCloses ∧ s.seen = s.server.conn.sent.length
  | .takeAnswer => True

instance decidableEnabled (s : State) : (label : Label) → Decidable (Enabled s label)
  | .request _ => inferInstanceAs (Decidable (s.answers.length = s.asked.length ∧
      ∀ m ∈ s.answers, isLast m = false))
  | .connectEstablished => inferInstanceAs (Decidable (s.server.conn.state = .kConnecting))
  | .handleRead n _ _ _ => inferInstanceAs (Decidable (s.server.conn.state ≠ .kConnecting ∧
      0 < n ∧ n ≤ s.inFlight.length ∧ n ≤ s.server.conn.inputBuffer.offered))
  | .handleWrite _ => inferInstanceAs (Decidable True)
  | .receive n => inferInstanceAs (Decidable (0 < n ∧ s.seen + n ≤ s.server.conn.sent.length))
  | .receiveEnd => inferInstanceAs (Decidable (0 < s.server.conn.halfCloses ∧
      s.seen = s.server.conn.sent.length))
  | .takeAnswer => inferInstanceAs (Decidable True)

/-- The read ends inside the request line, or takes all that is in flight; no write finds the
client gone. -/
def Gentle (s : State) : Label → Prop
  | .handleRead n _ _ result => result.alive ∧ (n < s.inFlight.length →
      (splitLines 13 10 (s.server.conn.inputBuffer.content ++ s.inFlight.take n)).1 = [])
  | .handleWrite result => result.alive
  | _ => True

instance decidableGentle (s : State) : (label : Label) → Decidable (Gentle s label)
  | .handleRead n _ _ result => inferInstanceAs (Decidable (result.alive ∧ (n < s.inFlight.length →
      (splitLines 13 10 (s.server.conn.inputBuffer.content ++ s.inFlight.take n)).1 = [])))
  | .handleWrite result => inferInstanceAs (Decidable result.alive)
  | .request _ | .connectEstablished | .receive _ | .receiveEnd | .takeAnswer =>
      inferInstanceAs (Decidable True)

def next (httpCallback : HttpCallback) (s : State) : Label → Option State
  | .request r => some { s with asked := s.asked ++ [r], inFlight := s.inFlight ++ r.text }
  | .connectEstablished =>
      (Rejection.next httpCallback s.server (.other .connectEstablished)).map fun server =>
        { s with server := server }
  | .handleRead n receiveTime behind result =>
      (Rejection.next httpCallback s.server
        (.handleRead (s.inFlight.take n) receiveTime behind result)).map fun server =>
          { s with server := server, inFlight := s.inFlight.drop n }
  | .handleWrite result =>
      (Rejection.next httpCallback s.server (.other (.handleWrite result))).map fun server =>
        { s with server := server }
  | .receive n => some { s with
      seen := s.seen + n
      unread := s.unread ++ (s.server.conn.sent.drop s.seen).take n }
  | .receiveEnd => some { s with ended := true }
  | .takeAnswer =>
      match Message.readNext s.ended s.unread with
      | none => some s
      | some (m, rest) => some { s with unread := rest, answers := s.answers ++ [m] }

def machine (httpCallback : HttpCallback) : Machine State Label where
  enabled := Enabled
  step := next httpCallback

instance decidableAllowed (httpCallback : HttpCallback) (s : State) (label : Label) :
    Decidable ((machine httpCallback).enabled s label) :=
  inferInstanceAs (Decidable (Enabled s label))

/-- The sessions over a gentle network. -/
def gentle (httpCallback : HttpCallback) : Machine State Label :=
  (machine httpCallback).restrict Gentle

instance decidableGently (httpCallback : HttpCallback) (s : State) (label : Label) :
    Decidable ((gentle httpCallback).enabled s label) :=
  inferInstanceAs (Decidable (Enabled s label ∧ Gentle s label))

section

variable (httpCallback : HttpCallback)

def State.responses (s : State) : List HttpResponse :=
  s.server.dispatched.map (reply httpCallback)

/-- The last request is still on its way to the parser. -/
structure Underway (s : State) (r : Request) : Prop where
  text : s.server.conn.inputBuffer.content ++ s.inFlight = r.text
  more : s.inFlight ≠ []
  before : s.answers.length = s.server.dispatched.length
  open_ : s.server.conn.state ≠ .kDisconnecting

/-- All requests have been dispatched, or all but the last one. -/
def Asked (s : State) : Prop :=
  ∃ served waiting, s.asked = served ++ waiting ∧
    List.Forall₂ (fun req r => ∃ time, req = Request.parsed r time) s.server.dispatched served ∧
    (waiting = [] ∧ s.server.conn.inputBuffer.content = [] ∧ s.inFlight = [] ∨
      ∃ r, waiting = [r] ∧ Underway s r)

structure Invariant (s : State) : Prop where
  fine : s.server.rejected = false
  output : s.server.output = (s.responses httpCallback).flatMap HttpResponse.render
  sync : s.server.conn.InSync
  up : s.server.conn.state ≠ .kDisconnected
  fresh : s.server.conn.state = .kConnecting → s.server.dispatched = []
  kept : s.server.conn.state ≠ .kDisconnecting →
    ∀ r ∈ s.responses httpCallback, r.closeConnection = false
  last : s.server.conn.state = .kDisconnecting →
    ∃ front r, s.responses httpCallback = front ++ [r] ∧ r.closeConnection = true
  ends : s.server.conn.halfCloses =
    if s.server.conn.state = .kDisconnecting ∧ s.server.conn.pending = [] then 1 else 0
  asked : Asked s
  seen : s.seen ≤ s.server.conn.sent.length
  arrived : ((s.responses httpCallback).take s.answers.length).flatMap HttpResponse.render ++
    s.unread = s.server.output.take s.seen
  answers : s.answers = ((s.responses httpCallback).take s.answers.length).map HttpResponse.message
  answered : s.answers.length ≤ s.server.dispatched.length
  waited : s.server.dispatched.length ≤ s.answers.length + 1
  ended : s.ended = true → s.seen = s.server.conn.sent.length ∧ s.server.conn.halfCloses ≠ 0

variable {httpCallback} {s t : State}

theorem created_invariant (name : Bytes) (sockfd : Int) (writeComplete highWater : Bool)
    (mark : Nat) :
    Invariant httpCallback (created name sockfd writeComplete highWater mark) := by
  have empty : Buffer.fresh.content = [] := Buffer.fresh_content
  constructor
  · rfl
  · exact empty
  · exact ⟨nofun, fun some => absurd empty some⟩
  · exact nofun
  · exact fun _ => rfl
  · exact fun _ r member => absurd member List.not_mem_nil
  · exact fun closing => by cases closing
  · rw [if_neg (by rintro ⟨closing, _⟩; cases closing)]
    rfl
  · exact ⟨[], [], rfl, .nil, Or.inl ⟨rfl, empty, rfl⟩⟩
  · exact Nat.zero_le _
  · rfl
  · rfl
  · exact Nat.le_refl _
  · exact Nat.zero_le _
  · exact fun ended => by cases ended

/-- The client has all the responses there are: nothing is on its way. -/
theorem Invariant.idle (inv : Invariant httpCallback s)
    (all : s.answers.length = s.server.dispatched.length) :
    s.server.conn.pending = [] ∧ s.unread = [] ∧ s.seen = s.server.conn.sent.length := by
  have whole : (s.responses httpCallback).take s.answers.length = s.responses httpCallback := by
    apply List.take_of_length_le
    rw [State.responses, List.length_map, all]
  have arrived := inv.arrived
  rw [whole, ← inv.output] at arrived
  have length := congrArg List.length arrived
  have seen := inv.seen
  rw [Rejection.State.output, List.length_append, List.length_append, List.length_take,
    List.length_append] at length
  have pending : s.server.conn.pending.length = 0 := by omega
  have unread : s.unread.length = 0 := by omega
  refine ⟨List.length_eq_zero_iff.mp pending, List.length_eq_zero_iff.mp unread, ?_⟩
  omega

/-- One response is on its way. -/
theorem Invariant.arriving (inv : Invariant httpCallback s)
    (less : s.answers.length ≠ s.server.dispatched.length) :
    ∃ front r, s.responses httpCallback = front ++ [r] ∧ front.length = s.answers.length ∧
      s.unread ++ s.server.output.drop s.seen = r.render := by
  have one : s.server.dispatched.length = s.answers.length + 1 := by
    have answered := inv.answered
    have waited := inv.waited
    omega
  have length : (s.responses httpCallback).length = s.answers.length + 1 := by
    rw [State.responses, List.length_map, one]
  obtain ⟨front, r, split⟩ : ∃ front r, s.responses httpCallback = front ++ [r] := by
    rcases List.eq_nil_or_concat (s.responses httpCallback) with none | ⟨front, r, split⟩
    · rw [none] at length
      cases length
    · exact ⟨front, r, by rw [split, List.concat_eq_append]⟩
  have same : front.length = s.answers.length := by
    rw [split, List.length_append, List.length_singleton] at length
    omega
  refine ⟨front, r, split, same, ?_⟩
  have arrived := inv.arrived
  have output := inv.output
  rw [split, ← same, List.take_left] at arrived
  rw [split, List.flatMap_append, List.flatMap_singleton] at output
  have whole : front.flatMap HttpResponse.render ++ (s.unread ++ s.server.output.drop s.seen) =
      front.flatMap HttpResponse.render ++ r.render := by
    rw [← List.append_assoc, arrived, List.take_append_drop, output]
  exact List.append_cancel_left whole

/-- A step of the server that dispatches nothing and adds nothing to the output. -/
theorem Invariant.moved (inv : Invariant httpCallback s) (server : Rejection.State)
    (inFlight : Bytes) (fine : server.rejected = s.server.rejected)
    (dispatched : server.dispatched = s.server.dispatched)
    (output : server.output = s.server.output) (sync : server.conn.InSync)
    (state : server.conn.state = s.server.conn.state ∨
      s.server.conn.state = .kConnecting ∧ server.conn.state = .kConnected)
    (ends : server.conn.halfCloses =
      if server.conn.state = .kDisconnecting ∧ server.conn.pending = [] then 1 else 0)
    (grows : ∃ more, server.conn.sent = s.server.conn.sent ++ more)
    (asked : Asked { s with server := server, inFlight := inFlight }) :
    Invariant httpCallback { s with server := server, inFlight := inFlight } := by
  have responses : State.responses httpCallback { s with server := server, inFlight := inFlight } =
      s.responses httpCallback := congrArg (List.map _) dispatched
  obtain ⟨more, grown⟩ := grows
  have down : server.conn.state = .kDisconnecting ↔ s.server.conn.state = .kDisconnecting := by
    rcases state with same | ⟨before, after⟩
    · rw [same]
    · rw [before, after]
      exact ⟨nofun, nofun⟩
  constructor
  · exact fine.trans inv.fine
  · rw [responses]
    exact output.trans inv.output
  · exact sync
  · rcases state with same | ⟨_, after⟩
    · exact fun none => inv.up (same.symm.trans none)
    · exact fun none => by cases after.symm.trans none
  · intro connecting
    rcases state with same | ⟨_, after⟩
    · exact dispatched.trans (inv.fresh (same.symm.trans connecting))
    · cases after.symm.trans connecting
  · rw [responses]
    exact fun open_ => inv.kept fun closing => open_ (down.mpr closing)
  · rw [responses]
    exact fun closing => inv.last (down.mp closing)
  · exact ends
  · exact asked
  · show s.seen ≤ server.conn.sent.length
    rw [grown, List.length_append]
    exact Nat.le_trans inv.seen (Nat.le_add_right _ _)
  · rw [responses]
    show _ = server.output.take s.seen
    rw [output]
    exact inv.arrived
  · rw [responses]
    exact inv.answers
  · exact Nat.le_trans inv.answered (Nat.le_of_eq (congrArg List.length dispatched.symm))
  · exact Nat.le_trans (Nat.le_of_eq (congrArg List.length dispatched)) inv.waited
  · intro ended
    obtain ⟨seen, closed⟩ := inv.ended ended
    have before : s.server.conn.state = .kDisconnecting ∧ s.server.conn.pending = [] := by
      by_contra open_
      exact closed (inv.ends.trans (if_neg open_))
    -- the output is what it was, and all of it had been written
    have still : more = [] ∧ server.conn.pending = [] := by
      rw [Rejection.State.output, Rejection.State.output, grown, before.2,
        List.append_assoc] at output
      exact List.append_eq_nil_iff.mp (List.append_cancel_left output)
    refine ⟨?_, ?_⟩
    · show s.seen = server.conn.sent.length
      rw [grown, still.1, List.append_nil, seen]
    · show server.conn.halfCloses ≠ 0
      rw [ends, if_pos ⟨down.mpr before.1, still.2⟩]
      exact Nat.one_ne_zero

/-- What the server's part in Asked depends on. -/
theorem Asked.moved (asked : Asked s) (server : Rejection.State)
    (dispatched : server.dispatched = s.server.dispatched)
    (input : server.conn.inputBuffer = s.server.conn.inputBuffer)
    (state : server.conn.state = s.server.conn.state ∨
      s.server.conn.state = .kConnecting ∧ server.conn.state = .kConnected) :
    Asked { s with server := server } := by
  obtain ⟨served, waiting, split, parsed, rest⟩ := asked
  refine ⟨served, waiting, split, dispatched ▸ parsed, ?_⟩
  rcases rest with ⟨none, empty, flight⟩ | ⟨r, one, underway⟩
  · exact Or.inl ⟨none, input ▸ empty, flight⟩
  · refine Or.inr ⟨r, one, ?_, underway.more, ?_, ?_⟩
    · show server.conn.inputBuffer.content ++ s.inFlight = r.text
      rw [input]
      exact underway.text
    · exact underway.before.trans (congrArg List.length dispatched.symm)
    · rcases state with same | ⟨_, after⟩
      · exact fun closing => underway.open_ (same.symm.trans closing)
      · exact fun closing => by cases after.symm.trans closing

theorem connectEstablished_step (inv : Invariant httpCallback s)
    (connecting : s.server.conn.state = .kConnecting) :
    ∃ t, next httpCallback s .connectEstablished = some t ∧ t.asked = s.asked ∧
      t.server.conn.state = .kConnected ∧ Invariant httpCallback t := by
  let r : Outcome := TcpConnection.updateChannel { s.server.conn with state := .kConnected }
    s.server.conn.channel.enableReading
  have done : s.server.conn.connectEstablished = some r := if_pos connecting
  have moved : Rejection.next httpCallback s.server (.other .connectEstablished) =
      some (s.server.take r) := by
    show (s.server.conn.connectEstablished.map _).map _ = _
    rw [done]
    rfl
  refine ⟨{ s with server := s.server.take r }, by rw [next, moved]; rfl, rfl, rfl, ?_⟩
  have none : s.server.conn.halfCloses = 0 := by
    rw [inv.ends, if_neg]
    rintro ⟨closing, _⟩
    cases connecting.symm.trans closing
  refine inv.moved (s.server.take r) s.inFlight rfl rfl rfl inv.sync (Or.inr ⟨connecting, rfl⟩) ?_
    ⟨[], (List.append_nil _).symm⟩ (inv.asked.moved _ rfl rfl (Or.inr ⟨connecting, rfl⟩))
  rw [if_neg (by rintro ⟨closing, _⟩; cases closing)]
  exact none

theorem handleWrite_step (inv : Invariant httpCallback s) (result : WriteResult) :
    ∃ t, next httpCallback s (.handleWrite result) = some t ∧ t.asked = s.asked ∧
      t.inFlight = s.inFlight ∧ t.server.conn.state = s.server.conn.state ∧
      (t.server.conn.pending = [] ↔
        s.server.conn.pending = [] ∨ s.server.conn.Drains result) ∧
      Invariant httpCallback t := by
  obtain ⟨r, done, frame, stream, sync⟩ := handleWrite_spec s.server.conn result
  obtain ⟨grows, empty⟩ := handleWrite_grows s.server.conn result r done
  obtain ⟨closes, _⟩ := handleWrite_halfCloses s.server.conn result r done
  have moved : Rejection.next httpCallback s.server (.other (.handleWrite result)) =
      some (s.server.take r) := by
    show ((s.server.conn.handleWrite result).map _).map _ = _
    rw [done]
    rfl
  have conn : (s.server.take r).conn = r.1 := Rejection.take_conn r
  have input : r.1.inputBuffer = s.server.conn.inputBuffer := congrArg (·.inputBuffer) frame
  have state : (s.server.take r).conn.state = s.server.conn.state := by
    rw [conn]
    exact frame.state
  refine ⟨{ s with server := s.server.take r }, by rw [next, moved]; rfl, rfl, rfl, state,
    by rw [conn]; exact empty, ?_⟩
  refine inv.moved (s.server.take r) s.inFlight rfl rfl ?_ ?_ (Or.inl state) ?_ ?_
    (inv.asked.moved _ rfl ?_ (Or.inl state))
  · rw [Rejection.State.output, conn]
    exact stream
  · rw [conn]
    exact sync inv.sync
  · rw [state, conn, closes, inv.ends]
    by_cases drains : s.server.conn.Drains result
    · have pending : s.server.conn.pending ≠ [] := by
        cases result with
        | accepted n =>
            intro none
            exact absurd drains.2.1 (by
              rw [(Buffer.readableBytes_eq_zero _).mpr none]
              exact lt_irrefl 0)
        | failed errno => exact drains.elim
      simp only [empty, pending, drains, and_false, ↓reduceIte, true_and, or_true, and_true,
        Nat.zero_add]
    · simp only [empty, drains, false_and, ↓reduceIte, or_false, Nat.add_zero]
  · rw [conn]
    exact grows
  · rw [conn]
    exact input

/-- A response that closes says so in its message. -/
theorem isLast_message (r : HttpResponse) : isLast r.message = r.closeConnection := by
  rw [isLast, HttpResponse.find_connection]
  cases r.closeConnection with
  | true => rfl
  | false => decide

theorem Asked.length (asked : Asked s) : ∃ waiting, s.asked.length =
    s.server.dispatched.length + waiting ∧ (waiting = 0 ∧ s.server.conn.inputBuffer.content = [] ∧
      s.inFlight = [] ∨ waiting = 1 ∧ ∃ r, Underway s r) := by
  obtain ⟨served, waiting, split, parsed, rest⟩ := asked
  refine ⟨waiting.length, ?_, ?_⟩
  · rw [split, List.length_append, parsed.length_eq]
  · rcases rest with ⟨rfl, empty, flight⟩ | ⟨r, rfl, underway⟩
    · exact Or.inl ⟨rfl, empty, flight⟩
    · exact Or.inr ⟨rfl, r, underway⟩

theorem request_step (inv : Invariant httpCallback s) (r : Request)
    (all : s.answers.length = s.asked.length) (more : ∀ m ∈ s.answers, isLast m = false) :
    Invariant httpCallback
      { s with asked := s.asked ++ [r], inFlight := s.inFlight ++ r.text } := by
  obtain ⟨served, waiting, split, parsed, rest⟩ := inv.asked
  have answered := inv.answered
  have counted : s.asked.length = s.server.dispatched.length + waiting.length := by
    rw [split, List.length_append, parsed.length_eq]
  have none : waiting = [] := List.length_eq_zero_iff.mp (by omega)
  subst none
  rw [List.append_nil] at split
  have same : s.answers.length = s.server.dispatched.length := by
    rw [all, counted]
    rfl
  obtain ⟨empty, flight⟩ : s.server.conn.inputBuffer.content = [] ∧ s.inFlight = [] := by
    rcases rest with ⟨_, empty, flight⟩ | ⟨_, one, _⟩
    · exact ⟨empty, flight⟩
    · cases one
  have open_ : s.server.conn.state ≠ .kDisconnecting := by
    intro closing
    obtain ⟨front, last, responses, closes⟩ := inv.last closing
    have answers := inv.answers
    rw [responses, List.take_of_length_le] at answers
    · have said := more last.message (by
        rw [answers, List.map_append]
        exact List.mem_append_right _ List.mem_cons_self)
      rw [isLast_message, closes] at said
      cases said
    · rw [← responses, State.responses, List.length_map, same]
  have asked : Asked { s with asked := s.asked ++ [r], inFlight := s.inFlight ++ r.text } := by
    refine ⟨served, [r], by rw [split], parsed, Or.inr ⟨r, rfl, ?_, ?_, same, open_⟩⟩
    · show s.server.conn.inputBuffer.content ++ (s.inFlight ++ r.text) = r.text
      rw [empty, flight]
      rfl
    · show s.inFlight ++ r.text ≠ []
      rw [flight]
      exact r.text_ne_nil
  exact ⟨inv.fine, inv.output, inv.sync, inv.up, inv.fresh, inv.kept, inv.last, inv.ends, asked,
    inv.seen, inv.arrived, inv.answers, inv.answered, inv.waited, inv.ended⟩

/-- What has arrived at the client does not matter to Asked. -/
theorem Asked.arrived (asked : Asked s) (seen : Nat) (unread : Bytes) (ended : Bool) :
    Asked { s with seen := seen, unread := unread, ended := ended } := by
  obtain ⟨served, waiting, split, parsed, rest⟩ := asked
  refine ⟨served, waiting, split, parsed, ?_⟩
  rcases rest with none | ⟨r, one, underway⟩
  · exact Or.inl none
  · exact Or.inr ⟨r, one, underway.text, underway.more, underway.before, underway.open_⟩

theorem receive_step (inv : Invariant httpCallback s) (n : Nat)
    (there : s.seen + n ≤ s.server.conn.sent.length) :
    Invariant httpCallback { s with
      seen := s.seen + n
      unread := s.unread ++ (s.server.conn.sent.drop s.seen).take n } := by
  have part : (s.server.conn.sent.drop s.seen).take n = (s.server.output.drop s.seen).take n := by
    rw [Rejection.State.output, List.drop_append_of_le_length inv.seen,
      List.take_append_of_le_length]
    rw [List.length_drop]
    omega
  refine ⟨inv.fine, inv.output, inv.sync, inv.up, inv.fresh, inv.kept, inv.last, inv.ends,
    inv.asked.arrived _ _ s.ended, there, ?_, inv.answers, inv.answered, inv.waited, ?_⟩
  · show _ ++ (s.unread ++ _) = s.server.output.take (s.seen + n)
    rw [← List.append_assoc, List.take_add, part]
    exact congrArg (· ++ _) inv.arrived
  · intro ended
    obtain ⟨seen, closed⟩ := inv.ended ended
    refine ⟨?_, closed⟩
    show s.seen + n = s.server.conn.sent.length
    omega

theorem takeAnswer_step (serviceable : Serviceable httpCallback) (inv : Invariant httpCallback s)
    (m : Message) (rest : Bytes) (read : Message.readNext s.ended s.unread = some (m, rest)) :
    s.answers.length ≠ s.server.dispatched.length ∧
    Invariant httpCallback { s with unread := rest, answers := s.answers ++ [m] } := by
  by_cases all : s.answers.length = s.server.dispatched.length
  · obtain ⟨_, unread, _⟩ := inv.idle all
    rw [unread] at read
    cases read
  · obtain ⟨front, r, split, length, part⟩ := inv.arriving all
    have framed : r.Framed := by
      have member : r ∈ s.responses httpCallback := by
        rw [split]
        exact List.mem_append_right _ List.mem_cons_self
      obtain ⟨req, _, rfl⟩ := List.mem_map.mp member
      exact (serviceable req).1
    have whole : s.ended = true → s.server.output.drop s.seen = [] := by
      intro ended
      obtain ⟨seen, closed⟩ := inv.ended ended
      have empty : s.server.conn.pending = [] := by
        by_contra some
        exact closed (inv.ends.trans (if_neg fun both => some both.2))
      rw [Rejection.State.output, empty, List.append_nil, seen, List.drop_length]
    obtain ⟨⟨arrived, _⟩, rfl, rfl⟩ :=
      (r.readNext_eq framed s.ended s.unread _ part whole m rest).mp read
    rw [arrived, List.append_nil] at part
    have later : (s.responses httpCallback).take (s.answers ++ [r.message]).length =
        s.responses httpCallback := by
      apply List.take_of_length_le
      rw [split, List.length_append, List.length_append, length]
      exact Nat.le_refl _
    have dispatched : s.server.dispatched.length = s.answers.length + 1 := by
      have counted := congrArg List.length split
      rw [State.responses, List.length_map, List.length_append, List.length_singleton] at counted
      omega
    have before := inv.answers
    rw [split, ← length, List.take_left] at before
    refine ⟨all, inv.fine, inv.output, inv.sync, inv.up, inv.fresh, inv.kept, inv.last, inv.ends,
      ?_, inv.seen, ?_, ?_, ?_, ?_, inv.ended⟩
    · obtain ⟨served, waiting, asked, parsed, rest⟩ := inv.asked
      refine ⟨served, waiting, asked, parsed, ?_⟩
      rcases rest with none | ⟨_, _, underway⟩
      · exact Or.inl none
      · exact absurd underway.before all
    · show ((s.responses httpCallback).take (s.answers ++ [r.message]).length).flatMap
        HttpResponse.render ++ [] = s.server.output.take s.seen
      have seen := inv.arrived
      rw [split, ← length, List.take_left] at seen
      rw [later, split, List.append_nil, List.flatMap_append, List.flatMap_singleton, ← part]
      exact seen
    · show s.answers ++ [r.message] = ((s.responses httpCallback).take
        (s.answers ++ [r.message]).length).map HttpResponse.message
      rw [later, split, List.map_append, ← before]
      rfl
    · show (s.answers ++ [r.message]).length ≤ s.server.dispatched.length
      rw [List.length_append, dispatched]
      exact Nat.le_refl _
    · show s.server.dispatched.length ≤ (s.answers ++ [r.message]).length + 1
      rw [List.length_append, dispatched, List.length_singleton]
      omega

/-- A read of a part of the request line. -/
theorem handleRead_part (inv : Invariant httpCallback s) (n : Nat) (receiveTime : TimeStamp)
    (behind : Nat → UInt8) (result : WriteResult) (positive : 0 < n)
    (part : n < s.inFlight.length) (fits : n ≤ s.server.conn.inputBuffer.offered)
    (open_ : (splitLines 13 10 (s.server.conn.inputBuffer.content ++ s.inFlight.take n)).1 = []) :
    ∃ t, next httpCallback s (.handleRead n receiveTime behind result) = some t ∧
      Invariant httpCallback t := by
  have length : (s.inFlight.take n).length = n := List.length_take_of_le (Nat.le_of_lt part)
  obtain ⟨left, content, done⟩ := handleRead_waits httpCallback s.server (s.inFlight.take n)
    receiveTime behind result (List.length_pos_iff.mp (by rw [length]; exact positive))
    (by rw [length]; exact fits) inv.fine open_
  refine ⟨{ s with server := s.server.setInput left, inFlight := s.inFlight.drop n }, ?_, ?_⟩
  · rw [next, done]
    rfl
  · refine inv.moved (s.server.setInput left) (s.inFlight.drop n) rfl rfl rfl inv.sync (Or.inl rfl)
      inv.ends ⟨[], (List.append_nil _).symm⟩ ?_
    obtain ⟨served, waiting, split, parsed, rest⟩ := inv.asked
    refine ⟨served, waiting, split, parsed, ?_⟩
    rcases rest with ⟨_, _, flight⟩ | ⟨r, one, underway⟩
    · rw [flight] at part
      cases part
    · refine Or.inr ⟨r, one, ?_, ?_, underway.before, underway.open_⟩
      · show left.content ++ s.inFlight.drop n = r.text
        rw [content, List.append_assoc, List.take_append_drop]
        exact underway.text
      · show s.inFlight.drop n ≠ []
        rw [← List.length_pos_iff, List.length_drop]
        omega

/-- The read that completes the request. -/
theorem handleRead_whole (inv : Invariant httpCallback s) (receiveTime : TimeStamp)
    (behind : Nat → UInt8) (result : WriteResult) (alive : result.alive)
    (begun : s.server.conn.state ≠ .kConnecting) (positive : 0 < s.inFlight.length)
    (fits : s.inFlight.length ≤ s.server.conn.inputBuffer.offered) :
    ∃ t, next httpCallback s (.handleRead s.inFlight.length receiveTime behind result) = some t ∧
      t.asked = s.asked ∧ t.inFlight = [] ∧ t.server.conn.state ≠ .kConnecting ∧
      Invariant httpCallback t := by
  obtain ⟨served, waiting, split, parsed, rest⟩ := inv.asked
  rcases rest with ⟨_, _, flight⟩ | ⟨r, rfl, underway⟩
  · rw [flight] at positive
    cases positive
  obtain ⟨idle, unread, seen⟩ := inv.idle underway.before
  have connected : s.server.conn.state = .kConnected := by
    cases state : s.server.conn.state with
    | kConnecting => exact absurd state begun
    | kConnected => rfl
    | kDisconnecting => exact absurd state underway.open_
    | kDisconnected => exact absurd state inv.up
  have none : s.server.conn.halfCloses = 0 := by
    rw [inv.ends, if_neg]
    rintro ⟨closing, _⟩
    exact underway.open_ closing
  obtain ⟨server, done, dispatched, fine, input, output, ⟨more, grown⟩, sync, kept, closes⟩ :=
    handleRead_serves httpCallback s.server s.inFlight receiveTime behind result underway.more fits
      inv.fine connected inv.sync idle alive r underway.text
  -- the response keeps the connection up, or it is the last one
  have state : server.conn.state = .kConnected ∧
      (reply httpCallback (r.parsed receiveTime)).closeConnection = false ∧
        server.conn.halfCloses = 0 ∨
      server.conn.state = .kDisconnecting ∧
      (reply httpCallback (r.parsed receiveTime)).closeConnection = true ∧
        server.conn.halfCloses = if server.conn.pending = [] then 1 else 0 := by
    cases closing : (reply httpCallback (r.parsed receiveTime)).closeConnection with
    | false => exact Or.inl ⟨(kept closing).1, rfl, (kept closing).2.trans none⟩
    | true =>
        refine Or.inr ⟨(closes closing).1, rfl, ?_⟩
        rw [(closes closing).2, none, Nat.zero_add]
  have responses : State.responses httpCallback { s with server := server, inFlight := [] } =
      s.responses httpCallback ++ [reply httpCallback (r.parsed receiveTime)] := by
    show server.dispatched.map _ = s.server.dispatched.map _ ++ _
    rw [dispatched, List.map_append]
    rfl
  have front : (s.responses httpCallback ++ [reply httpCallback (r.parsed receiveTime)]).take
      s.answers.length = (s.responses httpCallback).take s.answers.length := by
    rw [List.take_append_of_le_length]
    rw [State.responses, List.length_map]
    exact inv.answered
  have length : server.dispatched.length = s.answers.length + 1 := by
    rw [dispatched, List.length_append, underway.before]
    rfl
  refine ⟨{ s with server := server, inFlight := [] }, ?_, rfl, rfl, ?_, ?_⟩
  · rw [next, List.take_length, done, List.drop_length]
    rfl
  · show server.conn.state ≠ .kConnecting
    rcases state with ⟨up, _⟩ | ⟨down, _⟩
    · rw [up]
      decide
    · rw [down]
      decide
  constructor
  · exact fine
  · rw [responses, List.flatMap_append, List.flatMap_singleton, ← inv.output]
    exact output
  · exact sync
  · show server.conn.state ≠ .kDisconnected
    rcases state with ⟨up, _⟩ | ⟨down, _⟩
    · rw [up]
      decide
    · rw [down]
      decide
  · show server.conn.state = .kConnecting → server.dispatched = []
    intro connecting
    rcases state with ⟨up, _⟩ | ⟨down, _⟩
    · cases up.symm.trans connecting
    · cases down.symm.trans connecting
  · show server.conn.state ≠ .kDisconnecting → _
    rw [responses]
    intro open_ response member
    rcases List.mem_append.mp member with old | new
    · exact inv.kept underway.open_ response old
    · rw [List.mem_singleton.mp new]
      rcases state with ⟨_, stays, _⟩ | ⟨down, _⟩
      · exact stays
      · exact absurd down open_
  · show server.conn.state = .kDisconnecting → _
    intro closing
    rcases state with ⟨up, _⟩ | ⟨_, closes, _⟩
    · cases up.symm.trans closing
    · exact ⟨_, _, responses, closes⟩
  · show server.conn.halfCloses = if server.conn.state = .kDisconnecting ∧ server.conn.pending = []
      then 1 else 0
    rcases state with ⟨up, _, same⟩ | ⟨down, _, more⟩
    · rw [same, if_neg (by rintro ⟨closing, _⟩; cases up.symm.trans closing)]
    · rw [more]
      simp only [down, true_and]
  · refine ⟨served ++ [r], [], by rw [List.append_nil]; exact split, ?_, Or.inl ⟨rfl, input, rfl⟩⟩
    show List.Forall₂ _ server.dispatched (served ++ [r])
    rw [dispatched]
    exact List.rel_append parsed (.cons ⟨receiveTime, rfl⟩ .nil)
  · show s.seen ≤ server.conn.sent.length
    rw [grown, List.length_append]
    omega
  · show _ = server.output.take s.seen
    rw [responses, front, output, List.take_append_of_le_length]
    · exact inv.arrived
    · rw [Rejection.State.output, List.length_append]
      omega
  · rw [responses]
    show s.answers = (List.take s.answers.length (_ ++ _)).map _
    rw [front]
    exact inv.answers
  · show s.answers.length ≤ server.dispatched.length
    omega
  · show server.dispatched.length ≤ s.answers.length + 1
    omega
  · intro ended
    exact absurd none (inv.ended ended).2

/-- Every step completes and keeps the invariant. -/
theorem next_spec (serviceable : Serviceable httpCallback) (inv : Invariant httpCallback s)
    (label : Label) (enabled : Enabled s label) (fair : Gentle s label) :
    ∃ t, next httpCallback s label = some t ∧ Invariant httpCallback t := by
  cases label with
  | request r =>
      obtain ⟨all, more⟩ := enabled
      exact ⟨_, rfl, request_step inv r all more⟩
  | connectEstablished =>
      obtain ⟨t, done, _, _, kept⟩ := connectEstablished_step inv enabled
      exact ⟨t, done, kept⟩
  | handleRead n receiveTime behind result =>
      obtain ⟨begun, positive, there, fits⟩ := enabled
      obtain ⟨alive, uncut⟩ := fair
      by_cases part : n < s.inFlight.length
      · exact handleRead_part inv n receiveTime behind result positive part fits (uncut part)
      · obtain rfl : n = s.inFlight.length := by omega
        obtain ⟨t, done, _, _, _, kept⟩ :=
          handleRead_whole inv receiveTime behind result alive begun positive fits
        exact ⟨t, done, kept⟩
  | handleWrite result =>
      obtain ⟨t, done, _, _, _, _, kept⟩ := handleWrite_step inv result
      exact ⟨t, done, kept⟩
  | receive n => exact ⟨_, rfl, receive_step inv n enabled.2⟩
  | receiveEnd =>
      obtain ⟨closed, seen⟩ := enabled
      refine ⟨_, rfl, inv.fine, inv.output, inv.sync, inv.up, inv.fresh, inv.kept, inv.last,
        inv.ends, inv.asked.arrived s.seen s.unread true, inv.seen, inv.arrived, inv.answers,
        inv.answered, inv.waited, fun _ => ⟨seen, Nat.ne_of_gt closed⟩⟩
  | takeAnswer =>
      cases read : Message.readNext s.ended s.unread with
      | none => exact ⟨s, by rw [next, read], inv⟩
      | some taken =>
          exact ⟨_, by rw [next, read], (takeAnswer_step serviceable inv _ _ read).2⟩

theorem next_preserves (serviceable : Serviceable httpCallback) :
    (gentle httpCallback).Preserves (Invariant httpCallback) := by
  intro s label t inv enabled moved
  obtain ⟨u, done, kept⟩ := next_spec serviceable inv label enabled.1 enabled.2
  cases moved.symm.trans done
  exact kept

/-- A read that ends behind the request line uses the line up, and what is left of the request is
rejected. -/
example : ((machine (Main.onRequest fun _ => 0)).play (created [] 5 false false 0)
    [.connectEstablished, .request ⟨⟨.kGet, ascii "/hello", .kHttp11, by decide, by decide,
      by decide⟩, [], NoPair.of_notMem (by decide)⟩,
      .handleRead 21 0 (fun _ => 0) (.accepted 0),
      .handleRead 2 0 (fun _ => 0) (.accepted 0)]).map (fun s => s.server.rejected) =
    some true := by
  decide +kernel

/-- What a thing that is still to be done counts. -/
def weight (toDo : Prop) [Decidable toDo] (n : Nat) : Nat := if toDo then n else 0

theorem weight_le (toDo : Prop) [Decidable toDo] (n : Nat) : weight toDo n ≤ n := by
  unfold weight
  split
  · exact Nat.le_refl n
  · exact Nat.zero_le n

theorem weight_true {toDo : Prop} [Decidable toDo] (holds : toDo) (n : Nat) : weight toDo n = n :=
  if_pos holds

theorem weight_false {toDo : Prop} [Decidable toDo] (done : ¬ toDo) (n : Nat) :
    weight toDo n = 0 :=
  if_neg done

/-- What is still to be done before the client has its answer, the first things weighing
most. -/
def rank (s : State) : Nat :=
  weight (s.server.conn.state = .kConnecting) 32 + weight (s.inFlight ≠ []) 16 +
    weight (s.server.conn.pending ≠ []) 8 + weight (s.seen < s.server.conn.sent.length) 4 +
    weight (s.server.conn.state = .kDisconnecting ∧ s.ended = false) 2 +
    weight (s.answers.length < s.server.dispatched.length) 1

/-- Once the first things are done, little is left. -/
theorem rank_le (s : State) (begun : s.server.conn.state ≠ .kConnecting) :
    rank s ≤ 31 ∧ (s.inFlight = [] → rank s ≤ 15 ∧ (s.server.conn.pending = [] → rank s ≤ 7)) := by
  have flight := weight_le (s.inFlight ≠ []) 16
  have pending := weight_le (s.server.conn.pending ≠ []) 8
  have seen := weight_le (s.seen < s.server.conn.sent.length) 4
  have ended := weight_le (s.server.conn.state = .kDisconnecting ∧ s.ended = false) 2
  have answers := weight_le (s.answers.length < s.server.dispatched.length) 1
  have total : rank s = 0 + weight (s.inFlight ≠ []) 16 +
      weight (s.server.conn.pending ≠ []) 8 + weight (s.seen < s.server.conn.sent.length) 4 +
      weight (s.server.conn.state = .kDisconnecting ∧ s.ended = false) 2 +
      weight (s.answers.length < s.server.dispatched.length) 1 := by
    rw [rank, weight_false begun]
  refine ⟨by omega, fun arrived => ?_⟩
  rw [weight_false (not_not.mpr arrived)] at total
  refine ⟨by omega, fun written => ?_⟩
  rw [weight_false (not_not.mpr written)] at total
  omega

theorem offered_enough (b : Buffer) : Buffer.extrabufSize ≤ b.offered := by
  unfold Buffer.offered
  split <;> omega

/-- Short requests do not have to be cut. -/
theorem Invariant.fits (inv : Invariant httpCallback s)
    (short : ∀ r ∈ s.asked, r.text.length ≤ Buffer.extrabufSize) :
    s.inFlight.length ≤ s.server.conn.inputBuffer.offered := by
  have enough := offered_enough s.server.conn.inputBuffer
  obtain ⟨served, waiting, split, _, ⟨_, _, flight⟩ | ⟨r, rfl, underway⟩⟩ := inv.asked
  · rw [flight]
    exact Nat.zero_le _
  · have length := congrArg List.length underway.text
    have bound := short r (by rw [split]; exact List.mem_append_right _ List.mem_cons_self)
    rw [List.length_append] at length
    omega

/-- All of the last response has arrived: it can be taken. -/
theorem Invariant.readable (serviceable : Serviceable httpCallback)
    (inv : Invariant httpCallback s) (drained : s.server.conn.pending = [])
    (seen : ¬ s.seen < s.server.conn.sent.length)
    (ended : ¬ (s.server.conn.state = .kDisconnecting ∧ s.ended = false))
    (less : s.answers.length < s.server.dispatched.length) :
    ∃ m, Message.readNext s.ended s.unread = some (m, []) := by
  obtain ⟨front, r, split, _, part⟩ := inv.arriving (Nat.ne_of_lt less)
  have member : r ∈ s.responses httpCallback := by
    rw [split]
    exact List.mem_append_right _ List.mem_cons_self
  have framed : r.Framed := by
    obtain ⟨req, _, rfl⟩ := List.mem_map.mp member
    exact (serviceable req).1
  have nothing : s.server.output.drop s.seen = [] := by
    rw [Rejection.State.output, drained, List.append_nil]
    exact List.drop_eq_nil_of_le (by omega)
  refine ⟨r.message, (r.readNext_eq framed s.ended s.unread _ part (fun _ => nothing) _ _).mpr
    ⟨⟨nothing, ?_⟩, rfl, rfl⟩⟩
  cases closing : r.closeConnection with
  | false => exact Or.inl ((r.sized_iff framed).mpr closing)
  | true =>
      right
      have down : s.server.conn.state = .kDisconnecting := by
        by_contra open_
        rw [inv.kept open_ r member] at closing
        cases closing
      by_contra none
      exact ended ⟨down, Bool.eq_false_iff.mpr none⟩

/-- As long as something is to be done, the server, the network or the client can do it. -/
theorem Invariant.lower (serviceable : Serviceable httpCallback) (inv : Invariant httpCallback s)
    (short : ∀ r ∈ s.asked, r.text.length ≤ Buffer.extrabufSize) (busy : rank s ≠ 0) :
    ∃ label t, (∀ r, label ≠ .request r) ∧ (Enabled s label ∧ Gentle s label) ∧
      next httpCallback s label = some t ∧ (Invariant httpCallback t ∧ t.asked = s.asked) ∧
      rank t < rank s := by
  by_cases connecting : s.server.conn.state = .kConnecting
  · obtain ⟨t, done, asked, up, kept⟩ := connectEstablished_step inv connecting
    refine ⟨.connectEstablished, t, nofun, ⟨connecting, trivial⟩, done, ⟨kept, asked⟩, ?_⟩
    have few := (rank_le t (by rw [up]; decide)).1
    have many : 32 ≤ rank s := by
      rw [rank, weight_true connecting]
      omega
    omega
  by_cases flight : s.inFlight = []
  swap
  · have positive := List.length_pos_iff.mpr flight
    have fits := inv.fits short
    obtain ⟨t, done, asked, empty, begun, kept⟩ :=
      handleRead_whole inv 0 (fun _ => 0) (.accepted 0) trivial connecting positive fits
    refine ⟨.handleRead s.inFlight.length 0 (fun _ => 0) (.accepted 0), t, nofun,
      ⟨⟨connecting, positive, Nat.le_refl _, fits⟩, trivial, fun less => ?_⟩, done,
      ⟨kept, asked⟩, ?_⟩
    · exact absurd less (Nat.lt_irrefl _)
    · have few := ((rank_le t begun).2 empty).1
      have many : 16 ≤ rank s := by
        rw [rank, weight_true flight]
        omega
      omega
  by_cases drained : s.server.conn.pending = []
  swap
  · have drains : s.server.conn.Drains (.accepted s.server.conn.pending.length) := by
      have length : s.server.conn.pending.length = s.server.conn.outputBuffer.readableBytes :=
        Buffer.content_length _
      have positive := List.length_pos_iff.mpr drained
      exact ⟨inv.sync.mpr drained, by omega, by omega⟩
    obtain ⟨t, done, asked, same, state, empty, kept⟩ :=
      handleWrite_step inv (.accepted s.server.conn.pending.length)
    refine ⟨.handleWrite (.accepted s.server.conn.pending.length), t, nofun,
      ⟨trivial, trivial⟩, done, ⟨kept, asked⟩, ?_⟩
    have few := ((rank_le t (by rw [state]; exact connecting)).2 (same.trans flight)).2
      (empty.mpr (Or.inr drains))
    have many : 8 ≤ rank s := by
      rw [rank, weight_true drained]
      omega
    omega
  by_cases seen : s.seen < s.server.conn.sent.length
  · have rest : s.seen + (s.server.conn.sent.length - s.seen) = s.server.conn.sent.length := by
      omega
    have kept := receive_step inv (s.server.conn.sent.length - s.seen) (Nat.le_of_eq rest)
    refine ⟨.receive (s.server.conn.sent.length - s.seen), _, nofun,
      ⟨⟨by omega, Nat.le_of_eq rest⟩, trivial⟩, rfl, ⟨kept, rfl⟩, ?_⟩
    have all : ¬ s.seen + (s.server.conn.sent.length - s.seen) < s.server.conn.sent.length := by
      omega
    unfold rank
    dsimp only
    rw [weight_true seen, weight_false all]
    omega
  by_cases ended : s.server.conn.state = .kDisconnecting ∧ s.ended = false
  · have closed : s.server.conn.halfCloses = 1 := by
      rw [inv.ends, if_pos ⟨ended.1, drained⟩]
    have whole : s.seen = s.server.conn.sent.length := by
      have bound := inv.seen
      omega
    have enabled : Enabled s .receiveEnd := ⟨by omega, whole⟩
    obtain ⟨t, done, kept⟩ := next_spec serviceable inv .receiveEnd enabled trivial
    cases done
    refine ⟨.receiveEnd, _, nofun, ⟨enabled, trivial⟩, rfl, ⟨kept, rfl⟩, ?_⟩
    have past : ¬ (s.server.conn.state = .kDisconnecting ∧ true = false) := by
      rintro ⟨_, impossible⟩
      cases impossible
    unfold rank
    dsimp only
    rw [weight_true ended, weight_false past]
    omega
  by_cases less : s.answers.length < s.server.dispatched.length
  · obtain ⟨m, read⟩ := inv.readable serviceable drained seen ended less
    refine ⟨.takeAnswer, _, nofun, ⟨trivial, trivial⟩, by rw [next, read],
      ⟨(takeAnswer_step serviceable inv m [] read).2, rfl⟩, ?_⟩
    have after : ¬ (s.answers ++ [m]).length < s.server.dispatched.length := by
      have waited := inv.waited
      rw [List.length_append, List.length_singleton]
      omega
    rw [rank, rank, weight_true less, weight_false after]
    exact Nat.add_lt_add_left (by decide) _
  · refine absurd ?_ busy
    rw [rank, weight_false connecting, weight_false (not_not.mpr flight),
      weight_false (not_not.mpr drained), weight_false seen, weight_false ended, weight_false less]

theorem Invariant.settled (inv : Invariant httpCallback s) (nothing : rank s = 0) :
    s.answers.length = s.asked.length := by
  rw [rank] at nothing
  have flight : s.inFlight = [] := by
    by_contra some
    rw [weight_true some] at nothing
    omega
  have all : ¬ s.answers.length < s.server.dispatched.length := by
    intro less
    rw [weight_true less] at nothing
    omega
  have answered := inv.answered
  obtain ⟨waiting, length, ⟨none, _⟩ | ⟨_, r, underway⟩⟩ := inv.asked.length
  · omega
  · exact absurd flight underway.more

end

end Tundra.Session
