import Mathlib.Data.List.Basic
import Tundra.Http.HttpServer
import Tundra.Net.StateOrder

set_option autoImplicit false

/- A connection whose messageCallback_ is HttpServer::onMessage, with everything else
that may happen to the connection on its loop. -/
namespace Tundra.Rejection

open Library TcpConnection HttpServer

/-- `dispatched` are the requests passed to httpCallback_, `refusals` counts the 400
answers that have got as far as sendInLoop, and `rejected` tells whether a call of
onMessage has found parseRequest false. -/
structure State where
  side : HalfClose.State
  dispatched : List HttpRequest
  refusals : Nat
  rejected : Bool

namespace State

def conn (s : State) : TcpConnection := s.side.conn

/-- What has been handed to the socket and what waits for it. -/
def output (s : State) : Bytes := s.conn.sent ++ s.conn.pending

def take (s : State) (r : Outcome) : State := { s with side := s.side.took r }

def setInput (s : State) (buf : Buffer) : State :=
  { s with side := { s.side with conn := { s.conn with inputBuffer := buf } } }

end State

/-- The parse of an onMessage call returns false. -/
def rejects (buf : Buffer) (receiveTime : TimeStamp) : Bool :=
  (HttpContext.create.parseRequest buf receiveTime).any fun p => !p.ok

/-- onMessage runs on the loop thread. A call of it sends at most once, so that one
answer of the kernel is enough. -/
def perform (behind : Nat → UInt8) (answer : WriteResult) (s : State) :
    HttpAction → Option State
  | .httpCallback req => some { s with dispatched := s.dispatched ++ [req] }
  | .sendString text =>
      -- the memory as it is seen from the first byte of the text
      (s.conn.sendArg (pointerInto text behind) behind true answer (.string 0 text.length)).map
        fun r => { s.take r.1 with
          refusals := if text = badRequest ∧ s.conn.state = .kConnected then s.refusals + 1
            else s.refusals }
  | .sendBuffer buf =>
      (s.conn.sendArg (fun _ => 0) behind true answer (.buffer buf)).map fun r => s.take r.1
  | .shutdown => some (s.take (s.conn.shutdown true))

def messageCallback (httpCallback : HttpCallback) (s : State) (receiveTime : TimeStamp)
    (behind : Nat → UInt8) (answer : WriteResult) : Option State :=
  (onMessage httpCallback s.conn.inputBuffer receiveTime).bind fun (left, actions) =>
    actions.foldlM (perform behind answer)
      { s.setInput left with
        rejected := s.rejected || rejects s.conn.inputBuffer receiveTime }

inductive Label
  | handleRead (input : Option Bytes) (receiveTime : TimeStamp) (behind : Nat → UInt8)
      (answer : WriteResult)
  | other (label : HalfClose.Label)

/-- readFd has delivered something, so that messageCallback_ is called. -/
def delivers (c : TcpConnection) (input : Option Bytes) : Bool :=
  (c.inputBuffer.readFdCount input).any (0 < ·)

def next (httpCallback : HttpCallback) (s : State) : Label → Option State
  | .handleRead input receiveTime behind answer =>
      (s.conn.handleRead input).bind fun r =>
        let read := { s with side := s.side.closing r }
        if delivers s.conn input then
          messageCallback httpCallback read receiveTime behind answer
        else some read
  | .other label => (HalfClose.next s.side label).map fun side => { s with side := side }

/-- Nothing else reads the socket or takes from the input buffer, and poll reports
nothing before connectEstablished. -/
def Enabled (s : State) : Label → Prop
  | .handleRead _ _ _ _ => s.conn.state ≠ .kConnecting
  | .other (.handleRead _) => False
  | .other (.retrieve _) => False
  | .other label => HalfClose.Enabled s.side label

def machine (httpCallback : HttpCallback) : Machine State Label where
  enabled := Enabled
  step := next httpCallback

def created (name : Bytes) (sockfd : Int) (writeComplete highWater : Bool) (mark : Nat) : State :=
  ⟨HalfClose.created name sockfd writeComplete highWater mark, [], 0, false⟩

/-- A read finds the parse failing again, calls no httpCallback_, hands over no answer
and adds nothing to the output. -/
def Silent (s : State) (label : Label) (t : State) : Prop :=
  match label with
  | .handleRead input receiveTime _ _ =>
      (∀ read, s.conn.inputBuffer.readFd input = some read → delivers s.conn input = true →
        rejects read receiveTime = true) ∧
      t.dispatched = s.dispatched ∧ t.refusals = s.refusals ∧ t.output = s.output
  | .other _ => t.dispatched = s.dispatched ∧ t.refusals = s.refusals

/-- Past kConnected, with a line in front of the input that is no request line. -/
structure Rejected (s : State) : Prop where
  line : ∃ line rest, (splitLines 13 10 s.conn.inputBuffer.content).1 = line :: rest ∧
    HttpContext.requestLine line = none
  closed : StateE.kDisconnecting.rank ≤ s.conn.state.rank

/-- parseRequest is false on a fresh context exactly when the first line is complete and
no request line. -/
theorem rejects_iff (b : Buffer) (receiveTime : TimeStamp) :
    rejects b receiveTime = true ↔ ∃ line rest, (splitLines 13 10 b.content).1 = line :: rest ∧
      HttpContext.requestLine line = none := by
  have result (c : HttpContext) (ok : Bool) (left : List Bytes)
      (parsed : HttpContext.parseLines receiveTime .create (splitLines 13 10 b.content).1 =
        some (c, ok, left)) : rejects b receiveTime = !ok := by
    obtain ⟨p, called, _, same, _⟩ := parseRequest_parsed b receiveTime c ok left parsed
    rw [rejects, called, Option.any_some, same]
  constructor
  · intro failed
    cases lines : (splitLines 13 10 b.content).1 with
    | nil =>
        rw [result .create true [] (by rw [lines]; rfl)] at failed
        cases failed
    | cons line rest =>
        refine ⟨line, rest, rfl, ?_⟩
        cases first : HttpContext.requestLine line with
        | none => rfl
        | some request =>
            obtain ⟨c, left, taken⟩ :=
              HttpContext.parseLines_taken receiveTime line rest request first
            rw [result c true left (by rw [lines]; exact taken)] at failed
            cases failed
  · intro ⟨line, rest, lines, refused⟩
    obtain ⟨c, failed, _⟩ := HttpContext.parseLines_refused receiveTime line rest refused
    exact result c false (line :: rest) (by rw [lines]; exact failed)

/-- An onMessage call that does not reject hands over no text of its own. -/
theorem onMessage_texts (httpCallback : HttpCallback) (b left : Buffer) (receiveTime : TimeStamp)
    (actions : List HttpAction) (fine : rejects b receiveTime = false)
    (done : onMessage httpCallback b receiveTime = some (left, actions)) (text : Bytes) :
    .sendString text ∉ actions := by
  obtain ⟨p, parsed, rest⟩ := Option.bind_eq_some_iff.mp done
  have ok : p.ok = true := by
    rw [rejects, parsed, Option.any_some] at fine
    simpa using fine
  rw [ok, if_pos rfl] at rest
  split at rest
  · obtain ⟨answer, answered, same⟩ := Option.map_eq_some_iff.mp rest
    cases same
    unfold onRequest at answered
    dsimp only at answered
    rw [Option.map_eq_some_iff] at answered
    obtain ⟨buf, _, rfl⟩ := answered
    split <;> simp
  · cases rest
    simp

section Actions

variable {behind : Nat → UInt8} {answer : WriteResult} {s t : State}

theorem take_conn (r : Outcome) : (s.take r).conn = r.1 := HalfClose.took_conn r

/-- Only a text counts as an answer to a rejection. -/
theorem perform_kept (action : HttpAction) (other : ∀ text, action ≠ .sendString text)
    (done : perform behind answer s action = some t) :
    t.refusals = s.refusals ∧ t.rejected = s.rejected := by
  cases action with
  | httpCallback req =>
      cases done
      exact ⟨rfl, rfl⟩
  | sendString text => exact absurd rfl (other text)
  | sendBuffer buf =>
      obtain ⟨r, _, rfl⟩ := Option.map_eq_some_iff.mp done
      exact ⟨rfl, rfl⟩
  | shutdown =>
      cases done
      exact ⟨rfl, rfl⟩

theorem foldlM_kept (actions : List HttpAction) (other : ∀ text, .sendString text ∉ actions)
    (done : actions.foldlM (perform behind answer) s = some t) :
    t.refusals = s.refusals ∧ t.rejected = s.rejected := by
  induction actions generalizing s with
  | nil =>
      cases done
      exact ⟨rfl, rfl⟩
  | cons action rest ih =>
      rw [List.foldlM_cons] at done
      obtain ⟨u, first, later⟩ := Option.bind_eq_some_iff.mp done
      have here := perform_kept action
        (fun text same => other text (same ▸ List.mem_cons_self)) first
      have there := ih (fun text member => other text (List.mem_cons_of_mem _ member)) later
      exact ⟨there.1.trans here.1, there.2.trans here.2⟩

/-- The answer to a rejection on a connection that is past kConnected: nothing. -/
theorem refusal_closed (closed : StateE.kDisconnecting.rank ≤ s.conn.state.rank) :
    [.sendString badRequest, .shutdown].foldlM (perform behind answer) s = some s := by
  have down : s.conn.state ≠ .kConnected := by
    intro connected
    rw [connected] at closed
    revert closed
    decide
  have sends : perform behind answer s (.sendString badRequest) = some s := by
    rw [perform, sendArg_closed _ _ _ _ _ _ down, Option.map_some,
      if_neg (fun both => down both.2)]
    rfl
  have shuts : perform behind answer s .shutdown = some s := by
    rw [perform, shutdown, if_neg down]
    rfl
  rw [List.foldlM_cons, sends]
  change [HttpAction.shutdown].foldlM (perform behind answer) s = some s
  rw [List.foldlM_cons, shuts]
  rfl

theorem shutdown_closed (c : TcpConnection) (begun : c.state ≠ .kConnecting) :
    StateE.kDisconnecting.rank ≤ (c.shutdown true).1.state.rank := by
  unfold shutdown
  split
  · exact (HalfClose.shutdownInLoop_aside { c with state := .kDisconnecting }).forward
  · rename_i down
    revert begun down
    cases c.state <;> decide

/-- On any other connection it is one 400 and the end of kConnected. -/
theorem refusal_spec (begun : s.conn.state ≠ .kConnecting)
    (done : [.sendString badRequest, .shutdown].foldlM (perform behind answer) s = some t) :
    t.conn.inputBuffer = s.conn.inputBuffer ∧
      StateE.kDisconnecting.rank ≤ t.conn.state.rank ∧ t.refusals ≤ s.refusals + 1 ∧
      t.rejected = s.rejected := by
  rw [List.foldlM_cons] at done
  obtain ⟨u, first, later⟩ := Option.bind_eq_some_iff.mp done
  rw [List.foldlM_cons] at later
  obtain ⟨v, second, same⟩ := Option.bind_eq_some_iff.mp later
  cases same
  cases second
  obtain ⟨r, left, sent, calm, _⟩ := sendArg_calm s.conn (pointerInto badRequest behind) behind
    answer (.string 0 badRequest.length)
  rw [perform, sent, Option.map_some] at first
  cases first
  have frame := HalfClose.Aside.of_frame calm.frame
  have conn : State.conn { s.take r with
      refusals := if badRequest = badRequest ∧ s.conn.state = .kConnected then s.refusals + 1
        else s.refusals } = r.1 := take_conn r
  rw [take_conn, conn]
  refine ⟨(HalfClose.shutdown_aside r.1).input.trans frame.input, ?_, ?_, rfl⟩
  · apply shutdown_closed
    rw [calm.frame.state]
    exact begun
  · change (if badRequest = badRequest ∧ s.conn.state = .kConnected then s.refusals + 1
      else s.refusals) ≤ s.refusals + 1
    split
    · exact Nat.le_refl _
    · exact Nat.le_succ _

end Actions

section Runs

variable {httpCallback : HttpCallback} {s t : State}

/-- handleRead puts what it reads behind the bytes that are there, and may close. -/
theorem handleRead_spec {c : TcpConnection} {input : Option Bytes} {r : Outcome}
    (done : c.handleRead input = some r) :
    ∃ read more, c.inputBuffer.readFd input = some read ∧
      read.content = c.inputBuffer.content ++ more ∧ r.1.inputBuffer = read ∧
      c.state.rank ≤ r.1.state.rank ∧ r.1.sent = c.sent ∧ r.1.pending = c.pending ∧
      (delivers c input = true → r.1.state = c.state) := by
  obtain ⟨read, got, rest⟩ := Option.bind_eq_some_iff.mp done
  have content : ∃ more, read.content = c.inputBuffer.content ++ more := by
    cases input with
    | none =>
        cases got
        exact ⟨[], (List.append_nil _).symm⟩
    | some data =>
        obtain ⟨read', got', content⟩ := Buffer.readFd_content c.inputBuffer data
        cases got.symm.trans got'
        exact ⟨_, content⟩
  obtain ⟨more, content⟩ := content
  refine ⟨read, more, got, content, ?_⟩
  split at rest
  · rename_i empty
    have forward := (HalfClose.handleClose_aside rest).forward
    unfold handleClose at rest
    split at rest
    · cases rest
      refine ⟨rfl, forward, rfl, rfl, ?_⟩
      intro some
      rw [delivers, empty] at some
      cases some
    · cases rest
  · cases rest
    exact ⟨rfl, Nat.le_refl _, rfl, rfl, fun _ => rfl⟩

/-- Once a call has rejected, the connection is as Rejected says; before, no 400 has been
handed over. -/
structure Invariant (s : State) : Prop where
  final : s.rejected = true → Rejected s
  unused : s.rejected = false → s.refusals = 0
  once : s.refusals ≤ 1

theorem created_invariant (name : Bytes) (sockfd : Int) (writeComplete highWater : Bool)
    (mark : Nat) : Invariant (created name sockfd writeComplete highWater mark) := by
  refine ⟨?_, fun _ => rfl, Nat.zero_le _⟩
  intro impossible
  cases impossible

/-- More input and a later state leave a rejected connection rejected. -/
theorem Rejected.later (rejected : Rejected s) (more : Bytes)
    (content : t.conn.inputBuffer.content = s.conn.inputBuffer.content ++ more)
    (forward : s.conn.state.rank ≤ t.conn.state.rank) : Rejected t := by
  obtain ⟨line, rest, lines, refused⟩ := rejected.line
  obtain ⟨later, first⟩ := splitLines_append_first _ more line rest lines
  refine ⟨⟨line, later, ?_, refused⟩, rejected.closed.trans forward⟩
  rw [content]
  exact first

/-- A call of onMessage on a connection that is already rejected. -/
theorem messageCallback_again (rejected : Rejected s) (receiveTime : TimeStamp)
    (behind : Nat → UInt8) (answer : WriteResult)
    (done : messageCallback httpCallback s receiveTime behind answer = some t) :
    rejects s.conn.inputBuffer receiveTime = true ∧ ∃ left,
      left.content = s.conn.inputBuffer.content ∧
      t = { s.setInput left with rejected := true } := by
  have again : rejects s.conn.inputBuffer receiveTime = true :=
    (rejects_iff _ _).mpr rejected.line
  obtain ⟨line, rest, lines, refused⟩ := rejected.line
  obtain ⟨left, called, content⟩ :=
    onMessage_rejected httpCallback s.conn.inputBuffer receiveTime line rest lines refused
  refine ⟨again, left, content, ?_⟩
  rw [messageCallback, called, Option.bind_some] at done
  dsimp only at done
  rw [again, Bool.or_true, refusal_closed (s := { s.setInput left with rejected := true })
    rejected.closed] at done
  exact (Option.some.inj done).symm

/-- A call of onMessage on one that is not. -/
theorem messageCallback_first (fresh : s.rejected = false) (zero : s.refusals = 0)
    (begun : s.conn.state ≠ .kConnecting) (receiveTime : TimeStamp)
    (behind : Nat → UInt8) (answer : WriteResult)
    (done : messageCallback httpCallback s receiveTime behind answer = some t) : Invariant t := by
  obtain ⟨⟨left, actions⟩, called, rest⟩ := Option.bind_eq_some_iff.mp done
  dsimp only at rest
  rw [fresh, Bool.false_or] at rest
  cases parse : rejects s.conn.inputBuffer receiveTime with
  | false =>
      have texts := onMessage_texts httpCallback _ _ receiveTime actions parse called
      obtain ⟨refusals, rejected⟩ := foldlM_kept actions texts rest
      have none : t.refusals = 0 := refusals.trans zero
      refine ⟨?_, fun _ => none, by omega⟩
      intro impossible
      rw [rejected, parse] at impossible
      cases impossible
  | true =>
      obtain ⟨line, others, lines, refused⟩ := (rejects_iff _ _).mp parse
      obtain ⟨left', called', content⟩ :=
        onMessage_rejected httpCallback s.conn.inputBuffer receiveTime line others lines refused
      cases called.symm.trans called'
      rw [parse] at rest
      obtain ⟨input, closed, once, rejected⟩ :=
        refusal_spec (s := { s.setInput left with rejected := true }) begun rest
      have few : t.refusals ≤ s.refusals + 1 := once
      refine ⟨fun _ => ⟨⟨line, others, ?_, refused⟩, closed⟩, ?_, by omega⟩
      · rw [input]
        change (splitLines 13 10 left.content).1 = _
        rw [content, lines]
      · intro impossible
        rw [rejected] at impossible
        cases impossible

theorem handleRead_step (inv : Invariant s) {input : Option Bytes} {receiveTime : TimeStamp}
    {behind : Nat → UInt8} {answer : WriteResult} (begun : s.conn.state ≠ .kConnecting)
    (moved : next httpCallback s (.handleRead input receiveTime behind answer) = some t) :
    Invariant t ∧ (s.rejected = true →
      t.rejected = true ∧ Silent s (.handleRead input receiveTime behind answer) t) := by
  obtain ⟨r, done, rest⟩ := Option.bind_eq_some_iff.mp moved
  obtain ⟨read, more, got, content, input', forward, sent, pending, same⟩ := handleRead_spec done
  have conn : State.conn { s with side := s.side.closing r } = r.1 := HalfClose.closing_conn r
  have later (rejected : Rejected s) : Rejected { s with side := s.side.closing r } := by
    apply rejected.later more
    · rw [conn, input', content]
    · rw [conn]
      exact forward
  have output : State.output { s with side := s.side.closing r } = s.output := by
    rw [State.output, conn, sent, pending]
    rfl
  dsimp only at rest
  split at rest
  · rename_i delivered
    cases before : s.rejected with
    | false =>
        refine ⟨?_, fun impossible => absurd impossible (by decide)⟩
        apply messageCallback_first (s := { s with side := s.side.closing r }) before
          (inv.unused before) _ receiveTime behind answer rest
        rw [conn, same delivered]
        exact begun
    | true =>
        have rejected := later (inv.final before)
        obtain ⟨again, left, kept, rfl⟩ :=
          messageCallback_again rejected receiveTime behind answer rest
        rw [conn, input'] at again
        refine ⟨⟨fun _ => ?_, nofun, inv.once⟩,
          fun _ => ⟨rfl, ?_, rfl, rfl, output⟩⟩
        · exact rejected.later [] (kept.trans (List.append_nil _).symm) (Nat.le_refl _)
        · intro buf taken _
          cases got.symm.trans taken
          exact again
  · rename_i undelivered
    cases rest
    refine ⟨⟨fun rejected => later (inv.final rejected), inv.unused, inv.once⟩,
      fun rejected => ⟨rejected, ?_, rfl, rfl, output⟩⟩
    intro buf _ delivered
    exact absurd delivered undelivered

theorem next_spec (inv : Invariant s) {label : Label} (enabled : Enabled s label)
    (moved : next httpCallback s label = some t) :
    Invariant t ∧ (s.rejected = true → t.rejected = true ∧ Silent s label t) := by
  cases label with
  | handleRead input receiveTime behind answer => exact handleRead_step inv enabled moved
  | other label =>
      obtain ⟨side, done, rfl⟩ := Option.map_eq_some_iff.mp moved
      have aside : HalfClose.Aside s.conn side.conn := by
        apply HalfClose.next_aside _ _ done
        · intro input same
          subst same
          exact enabled
        · intro left same
          subst same
          exact enabled
      refine ⟨⟨?_, inv.unused, inv.once⟩, fun rejected => ⟨rejected, rfl, rfl⟩⟩
      intro rejected
      refine (inv.final rejected).later (t := { s with side := side }) [] ?_ aside.forward
      change side.conn.inputBuffer.content = _
      rw [aside.input, List.append_nil]

theorem next_preserves : (machine httpCallback).Preserves Invariant :=
  fun _ _ _ inv enabled moved => (next_spec inv enabled moved).1

theorem Silent.dispatched {label : Label} (silent : Silent s label t) :
    t.dispatched = s.dispatched := by
  cases label with
  | handleRead input receiveTime behind answer => exact silent.2.1
  | other label => exact silent.1

/-- Rejection is final: behind a call of onMessage that has found parseRequest false, in
every continuation of the run, every read finds it false again, calls no httpCallback_ and
adds nothing to the output; and at most one 400 is ever handed over. -/
theorem rejection_final (httpCallback : HttpCallback) (name : Bytes) (sockfd : Int)
    (writeComplete highWater : Bool) (mark : Nat) (front back : List Label)
    (before : (machine httpCallback).Run (created name sockfd writeComplete highWater mark) front s)
    (rejected : s.rejected = true) (after : (machine httpCallback).Run s back t) :
    (machine httpCallback).Along Silent s back ∧ t.dispatched = s.dispatched ∧
      t.refusals ≤ 1 := by
  have inv := before.invariant next_preserves (created_invariant name sockfd writeComplete _ mark)
  have keeps : (machine httpCallback).Preserves fun u =>
      Invariant u ∧ u.rejected = true ∧ u.dispatched = s.dispatched := by
    intro u label v ⟨known, once, same⟩ enabled moved
    obtain ⟨kept, silent⟩ := next_spec known enabled moved
    exact ⟨kept, (silent once).1, (silent once).2.dispatched.trans same⟩
  obtain ⟨last, _, same⟩ := after.invariant keeps ⟨inv, rejected, rfl⟩
  refine ⟨?_, same, last.once⟩
  refine after.along keeps ?_ ⟨inv, rejected, rfl⟩
  intro u label v known enabled moved
  exact ((next_spec known.1 enabled moved).2 known.2.1).2

end Runs

instance (httpCallback : HttpCallback) (s : State) :
    (label : Label) → Decidable ((machine httpCallback).enabled s label)
  | .handleRead _ _ _ _ => inferInstanceAs (Decidable (s.conn.state ≠ .kConnecting))
  | .other (.handleRead _) | .other (.retrieve _) => isFalse id
  | .other (.send mem behind arg answer) =>
      inferInstanceAs (Decidable (HalfClose.machine.enabled s.side (.send mem behind arg answer)))
  | .other (.runFunctor mem behind answer) =>
      inferInstanceAs (Decidable (HalfClose.machine.enabled s.side (.runFunctor mem behind answer)))
  | .other (.fireTimer locked) =>
      inferInstanceAs (Decidable (HalfClose.machine.enabled s.side (.fireTimer locked)))
  | .other .connectEstablished | .other .shutdown | .other .forceClose
  | .other .forceCLoseWithDelay | .other .startRead | .other .stopRead
  | .other (.handleWrite _) | .other .handleClose | .other .connectDestroyed => isTrue trivial

def plain : HttpCallback := fun _ response => { response with statusCode := .k200OK }

/-- A bad request line arrives in two pieces. -/
def badLine : List Label :=
  [.other .connectEstablished, .handleRead (some (ascii "BAD\r")) 0 (fun _ => 0) (.accepted 0),
    .handleRead (some (ascii "\n")) 0 (fun _ => 0) (.accepted 9)]

/-- A request that would be served on a connection of its own. -/
def goodLine : List Label :=
  [.handleRead (some (ascii "GET / HTTP/1.1\r\n\r\n")) 0 (fun _ => 0) (.accepted 99),
    .other (.handleWrite (.accepted 99))]

theorem rejection_final_badLine :
    ∃ s t, (machine plain).Run (created [] 5 false false 0) badLine s ∧ s.refusals = 1 ∧
      (machine plain).Run s goodLine t ∧ (machine plain).Along Silent s goodLine ∧
      t.dispatched = s.dispatched ∧ t.refusals ≤ 1 := by
  have played : ((machine plain).play (created [] 5 false false 0) badLine).any (fun s =>
      s.rejected && s.refusals == 1 && ((machine plain).play s goodLine).isSome) = true := by
    decide +kernel
  obtain ⟨s, first, rest⟩ := (Option.any_eq_true _ _).mp played
  simp only [Bool.and_eq_true, beq_iff_eq] at rest
  obtain ⟨⟨rejected, once⟩, more⟩ := rest
  obtain ⟨t, second⟩ := Option.isSome_iff_exists.mp more
  have before := (machine plain).run_of_play _ badLine s first
  have after := (machine plain).run_of_play s goodLine t second
  exact ⟨s, t, before, once, after, rejection_final plain [] 5 false false 0 badLine goodLine
    before rejected after⟩

end Tundra.Rejection
