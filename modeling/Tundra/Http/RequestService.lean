import Tundra.Http.HttpClient
import Tundra.Http.Pipelining
import Tundra.Http.Rejection
import Tundra.Http.RequestRendering
import Tundra.Net.OutputStream

set_option autoImplicit false

/- What a read on the connection does when it completes a request, and when it completes no
line at all. -/
namespace Tundra.Session

open Library TcpConnection HttpServer Pipelining

/-- A request as the client writes it. -/
structure Request where
  line : RequestLine
  fields : List HeaderField
  oneLine : NoPair 13 10 line.target

namespace Request

def text (r : Request) : Bytes := r.line.render r.fields

/-- What the parser makes of it. -/
def parsed (r : Request) (receiveTime : TimeStamp) : HttpRequest :=
  { r.line.request with
    receiveTime := receiveTime
    headers := HttpContext.addHeaders OrderedMap.empty (r.fields.map HeaderField.text) }

theorem lines (r : Request) : splitLines 13 10 r.text =
    (r.line.text :: (r.fields.map HeaderField.text ++ [[]]), []) := by
  have plain : ∀ line ∈ r.line.text :: (r.fields.map HeaderField.text ++ [[]]),
      NoPair 13 10 line := by
    intro line member
    rcases List.mem_cons.mp member with rfl | member
    · exact HttpContext.text_noPair r.line r.oneLine
    · rcases List.mem_append.mp member with field | last
      · obtain ⟨f, _, rfl⟩ := List.mem_map.mp field
        exact f.oneLine
      · rw [List.mem_singleton.mp last]
        exact noPair_nil 13 10
  have split := splitLines_unlines (by decide) _ plain []
  rw [List.append_nil] at split
  rw [text, RequestLine.render, split]
  simp [splitLines]

theorem text_ne_nil (r : Request) : r.text ≠ [] := by
  intro empty
  have lines := r.lines
  rw [empty] at lines
  cases lines

end Request

/-- The response to a request. -/
def reply (httpCallback : HttpCallback) (req : HttpRequest) : HttpResponse :=
  httpCallback req (HttpResponse.create (wantsClose req))

/-- The callback makes responses that a client can read, of a length that an int holds. -/
def Serviceable (httpCallback : HttpCallback) : Prop :=
  ∀ req, (reply httpCallback req).Framed ∧ (reply httpCallback req).render.length < 2 ^ 31

/-- The server's calls for a request. -/
def answer (httpCallback : HttpCallback) (req : HttpRequest) (buf : Buffer) : List HttpAction :=
  [.httpCallback req, .sendBuffer buf] ++
    if (reply httpCallback req).closeConnection then [.shutdown] else []

section Connection

variable (c : TcpConnection)

theorem sendInLoop_grows (msg : Nat → UInt8) (len : Nat) (result : WriteResult) (r : Outcome)
    (done : c.sendInLoop msg len result = some r) : ∃ more, r.1.sent = c.sent ++ more := by
  have direct : ∃ more, (c.directWrite msg len result).conn.sent = c.sent ++ more := by
    unfold directWrite
    split
    · cases result <;> exact ⟨_, wrote_sent c _⟩
    · exact ⟨[], (List.append_nil _).symm⟩
  unfold sendInLoop at done
  split at done
  · cases done
    exact ⟨[], (List.append_nil _).symm⟩
  · dsimp only at done
    rw [if_pos (directWrite_remaining c msg len result)] at done
    split at done
    · obtain ⟨r', queued, socket, _⟩ := queueRest_spec (c.directWrite msg len result) msg
      rw [queued, Option.some.injEq] at done
      rw [← done, TcpConnection.sent, socket]
      exact direct
    · cases done
      exact direct

/-- What handleWrite takes off the buffer goes to the socket, and the buffer is empty after it
if it was before or the write took all of it. -/
theorem handleWrite_grows (result : WriteResult) (r : Outcome)
    (done : c.handleWrite result = some r) :
    (∃ more, r.1.sent = c.sent ++ more) ∧
      (r.1.pending = [] ↔ c.pending = [] ∨ c.Drains result) := by
  rcases handleWrite_cases c result with ⟨silent, same⟩ | ⟨_, stays, same⟩ |
    ⟨k, out, _, stays, _, more, same⟩ | ⟨k, out, _, drains, _, empty, same⟩
  all_goals
    rw [same, Option.some.injEq] at done
    subst done
  · have stays : ¬ c.Drains result := by
      cases result with
      | accepted n => exact fun drains => absurd drains.1 (by rw [silent]; decide)
      | failed errno => exact id
    exact ⟨⟨[], (List.append_nil _).symm⟩, by simp [stays]⟩
  · refine ⟨⟨[], wrote_sent c []⟩, ?_⟩
    simp only [stays, or_false]
    rfl
  · refine ⟨⟨_, wrote_sent c _⟩, ?_⟩
    have rest : (c.took k out).pending = out.content := rfl
    have some : c.pending ≠ [] := by
      intro none
      have taken := took_stream c k out ‹_›
      rw [rest, none, List.append_nil] at taken
      have length := congrArg List.length taken
      have grown : (c.took k out).sent = c.sent ++ c.outputBuffer.content.take k :=
        wrote_sent c _
      rw [grown] at length
      have positive := List.length_pos_iff.mpr more
      simp only [List.length_append] at length
      omega
    simp only [rest, more, some, stays, or_self]
  · obtain ⟨_, taken, buffer, _⟩ := drained_spec (c.took k out)
    refine ⟨⟨c.outputBuffer.content.take k, taken.trans (wrote_sent c _)⟩, ?_⟩
    have rest : (c.took k out).drained.1.pending = out.content := congrArg Buffer.content buffer
    simp only [rest, empty, drains, or_true]

end Connection

section Server

variable (httpCallback : HttpCallback)

theorem onRequest_eq (req : HttpRequest) : onRequest httpCallback req =
    ((reply httpCallback req).appendToBuffer Buffer.fresh).map (answer httpCallback req) := rfl

theorem onMessage_answers (b : Buffer) (receiveTime : TimeStamp) (r : Request)
    (content : b.content = r.text) :
    ∃ left buf, onMessage httpCallback b receiveTime =
        some (left, answer httpCallback (r.parsed receiveTime) buf) ∧ left.content = [] ∧
      buf.content = (reply httpCallback (r.parsed receiveTime)).render := by
  have parsed := HttpContext.parseLines_rendered receiveTime r.line r.fields []
  have lines := r.lines
  rw [← content] at lines
  obtain ⟨p, returned, context, ok, left⟩ := parseRequest_parsed b receiveTime _ true []
    (by rw [lines]; exact parsed)
  obtain ⟨buf, rendered, whole⟩ := Buffer.append_pieces
    (reply httpCallback (r.parsed receiveTime)).pieces Buffer.fresh
  have request : p.context.request = r.parsed receiveTime := by
    rw [context]
    rfl
  have got : p.context.gotAll = true := by
    rw [context]
    rfl
  refine ⟨p.buf, buf, ?_, ?_, ?_⟩
  · have answered : onRequest httpCallback p.context.request =
        some (answer httpCallback (r.parsed receiveTime) buf) := by
      rw [request, onRequest_eq httpCallback, HttpResponse.appendToBuffer, rendered,
        Option.map_some]
    simp only [onMessage, returned, Option.bind_some, ok, got, ↓reduceIte, answered,
      Option.map_some, List.nil_append]
  · rw [left, lines]
    rfl
  · rw [whole, Buffer.fresh_content, List.nil_append, HttpResponse.render]

/-- The calls for a request, on a connection with nothing left to send. -/
theorem perform_answer (s : Rejection.State) (behind : Nat → UInt8) (result : WriteResult)
    (connected : s.conn.state = .kConnected) (sync : s.conn.InSync) (idle : s.conn.pending = [])
    (alive : result.alive) (req : HttpRequest) (buf : Buffer) :
    ∃ t, (answer httpCallback req buf).foldlM (Rejection.perform behind result) s = some t ∧
      t.dispatched = s.dispatched ++ [req] ∧ t.rejected = s.rejected ∧
      t.conn.inputBuffer = s.conn.inputBuffer ∧ t.output = s.output ++ buf.content ∧
      (∃ more, t.conn.sent = s.conn.sent ++ more) ∧ t.conn.InSync ∧
      ((reply httpCallback req).closeConnection = false →
        t.conn.state = .kConnected ∧ t.conn.halfCloses = s.conn.halfCloses) ∧
      ((reply httpCallback req).closeConnection = true → t.conn.state = .kDisconnecting ∧
        t.conn.halfCloses = s.conn.halfCloses + if t.conn.pending = [] then 1 else 0) := by
  have live : s.conn.state ≠ .kDisconnected := by
    rw [connected]
    decide
  have free : s.conn.idle = true := by
    refine (idle_iff s.conn).mpr ⟨?_, idle⟩
    rw [Bool.eq_false_iff]
    exact fun writing => sync.mp writing idle
  obtain ⟨r, sent, frame, stream, synced⟩ := sendInLoop_spec s.conn
    ((SendArg.buffer buf).start (fun _ => 0) behind) (SendArg.buffer buf).length result live
  have closes := sendInLoop_halfCloses s.conn _ _ result r sent
  have grows := sendInLoop_grows s.conn _ _ result r sent
  rw [OutputStream.contribution_unqueued s.conn (fun _ => 0) behind (.buffer buf) result
    (Or.inr free) alive] at stream
  let u : Rejection.State := { s with dispatched := s.dispatched ++ [req] }
  have conn : (u.take r).conn = r.1 := Rejection.take_conn r
  have state : r.1.state = .kConnected := frame.state.trans connected
  have first : [HttpAction.httpCallback req, .sendBuffer buf].foldlM
      (Rejection.perform behind result) s = some (u.take r) := by
    have done := sendArg_inLoop s.conn (fun _ => 0) behind result (.buffer buf) connected
    rw [sent, Option.map_some] at done
    show (Rejection.perform behind result u (.sendBuffer buf)).bind (fun t => some t) = _
    rw [Rejection.perform]
    show ((s.conn.sendArg _ _ _ _ _).map _).bind _ = _
    rw [done]
    rfl
  have input : r.1.inputBuffer = s.conn.inputBuffer :=
    congrArg (·.inputBuffer) frame
  rw [answer, List.foldlM_append, first]
  cases closing : (reply httpCallback req).closeConnection with
  | false =>
      refine ⟨u.take r, rfl, rfl, rfl, conn ▸ input, ?_, conn ▸ grows, conn ▸ synced sync,
        fun _ => ⟨conn ▸ state, conn ▸ closes⟩, fun closes => (by cases closes)⟩
      rw [Rejection.State.output, conn, stream]
      rfl
  | true =>
      have shut : (u.take r).conn.shutdown true =
          (TcpConnection.shutdownInLoop { r.1 with state := .kDisconnecting }, []) := by
        rw [conn, TcpConnection.shutdown, if_pos state]
        rfl
      have after : ((u.take r).take ((u.take r).conn.shutdown true)).conn =
          TcpConnection.shutdownInLoop { r.1 with state := .kDisconnecting } := by
        rw [Rejection.take_conn, shut]
      obtain ⟨taken, buffer, channel⟩ :=
        shutdownInLoop_kept { r.1 with state := .kDisconnecting }
      have aside := shutdownInLoop_outputOnly { r.1 with state := .kDisconnecting }
      refine ⟨(u.take r).take ((u.take r).conn.shutdown true), rfl, rfl, rfl, ?_, ?_, ?_, ?_,
        fun stays => (by cases stays), fun _ => ⟨?_, ?_⟩⟩
      · rw [after]
        exact (congrArg (·.inputBuffer) aside).trans input
      · rw [Rejection.State.output, after, taken, TcpConnection.pending, buffer]
        exact stream
      · rw [after, taken]
        exact grows
      · rw [after]
        exact (show InSync { r.1 with state := .kDisconnecting } from synced sync).of_same
          buffer channel
      · rw [after]
        exact aside.state
      · have writing : r.1.channel.isWriting = true ↔ r.1.pending ≠ [] := synced sync
        rw [after, TcpConnection.pending, buffer, ← closes, TcpConnection.halfCloses,
          TcpConnection.shutdownInLoop]
        by_cases empty : r.1.pending = []
        · have off : r.1.channel.isWriting ≠ true := fun on => writing.mp on empty
          rw [if_neg off, if_pos (show r.1.outputBuffer.content = [] from empty)]
          simp [TcpConnection.halfCloses, List.count_append]
        · rw [if_pos (show r.1.channel.isWriting = true from writing.mpr empty),
            if_neg (show r.1.outputBuffer.content ≠ [] from empty)]
          rfl

/-- A read that delivers something goes on to messageCallback_. -/
theorem next_handleRead (s : Rejection.State) (data : Bytes) (receiveTime : TimeStamp)
    (behind : Nat → UInt8) (result : WriteResult) (nonempty : data ≠ [])
    (fits : data.length ≤ s.conn.inputBuffer.offered) :
    ∃ read, read.content = s.conn.inputBuffer.content ++ data ∧
      Rejection.next httpCallback s (.handleRead data receiveTime behind result) =
        Rejection.messageCallback httpCallback (s.setInput read) receiveTime behind result := by
  obtain ⟨read, got, content⟩ := Buffer.readFd_content s.conn.inputBuffer data
  rw [List.take_of_length_le fits] at content
  have positive : 0 < data.length := List.length_pos_iff.mpr nonempty
  have count : s.conn.inputBuffer.readFdCount data = data.length := by
    rw [Buffer.readFdCount, Option.map_some, List.take_of_length_le fits]
  have handled : s.conn.handleRead data =
      ({ s.conn with inputBuffer := read }, ([] : List Effect)) := by
    rw [TcpConnection.handleRead, got, Option.bind_some, count]
    split
    · rename_i zero
      rw [Option.some.injEq] at zero
      omega
    · rfl
  have delivered : Rejection.delivers s.conn data = true := by
    rw [Rejection.delivers, count, Option.any_some]
    exact decide_eq_true positive
  have stays : s.side.closing ({ s.conn with inputBuffer := read }, []) =
      { s.side with conn := { s.conn with inputBuffer := read } } := if_pos rfl
  refine ⟨read, content, ?_⟩
  rw [Rejection.next, handled, Option.bind_some]
  dsimp only
  rw [if_pos delivered, stays]
  rfl

/-- A call of onMessage that does not reject. -/
theorem messageCallback_eq (s : Rejection.State) (receiveTime : TimeStamp)
    (behind : Nat → UInt8) (result : WriteResult) (fine : s.rejected = false)
    (passes : Rejection.rejects s.conn.inputBuffer receiveTime = false) (left : Buffer)
    (actions : List HttpAction)
    (called : onMessage httpCallback s.conn.inputBuffer receiveTime = some (left, actions)) :
    Rejection.messageCallback httpCallback s receiveTime behind result =
      actions.foldlM (Rejection.perform behind result) (s.setInput left) := by
  have still : ({ s.setInput left with rejected := false } : Rejection.State) = s.setInput left :=
    congrArg (fun value => ({ s.setInput left with rejected := value } : Rejection.State)) fine.symm
  rw [Rejection.messageCallback, called, Option.bind_some, fine, passes]
  show actions.foldlM _ { s.setInput left with rejected := false } = _
  rw [still]

/-- Still no line is complete: the bytes wait. -/
theorem handleRead_waits (s : Rejection.State) (data : Bytes) (receiveTime : TimeStamp)
    (behind : Nat → UInt8) (result : WriteResult) (nonempty : data ≠ [])
    (fits : data.length ≤ s.conn.inputBuffer.offered) (fine : s.rejected = false)
    (open_ : (splitLines 13 10 (s.conn.inputBuffer.content ++ data)).1 = []) :
    ∃ left, left.content = s.conn.inputBuffer.content ++ data ∧
      Rejection.next httpCallback s (.handleRead data receiveTime behind result) =
        s.setInput left := by
  obtain ⟨read, content, done⟩ := next_handleRead httpCallback s data
    receiveTime behind result nonempty fits
  obtain ⟨left, called, same⟩ :=
    onMessage_wait httpCallback read receiveTime (by rw [content]; exact open_)
  have passes : Rejection.rejects read receiveTime = false := by
    rw [Bool.eq_false_iff]
    intro failed
    obtain ⟨line, rest, lines, _⟩ := (Rejection.rejects_iff read receiveTime).mp failed
    rw [content, open_] at lines
    cases lines
  refine ⟨left, same.trans content, ?_⟩
  rw [done, messageCallback_eq httpCallback (s.setInput read) receiveTime behind result fine passes
    left [] called]
  rfl

/-- The request is complete: it is dispatched and answered. -/
theorem handleRead_serves (s : Rejection.State) (data : Bytes) (receiveTime : TimeStamp)
    (behind : Nat → UInt8) (result : WriteResult) (nonempty : data ≠ [])
    (fits : data.length ≤ s.conn.inputBuffer.offered) (fine : s.rejected = false)
    (connected : s.conn.state = .kConnected) (sync : s.conn.InSync) (idle : s.conn.pending = [])
    (alive : result.alive) (r : Request) (whole : s.conn.inputBuffer.content ++ data = r.text) :
    ∃ t, Rejection.next httpCallback s (.handleRead data receiveTime behind result) = some t ∧
      t.dispatched = s.dispatched ++ [r.parsed receiveTime] ∧ t.rejected = false ∧
      t.conn.inputBuffer.content = [] ∧
      t.output = s.output ++ (reply httpCallback (r.parsed receiveTime)).render ∧
      (∃ more, t.conn.sent = s.conn.sent ++ more) ∧ t.conn.InSync ∧
      ((reply httpCallback (r.parsed receiveTime)).closeConnection = false →
        t.conn.state = .kConnected ∧ t.conn.halfCloses = s.conn.halfCloses) ∧
      ((reply httpCallback (r.parsed receiveTime)).closeConnection = true →
        t.conn.state = .kDisconnecting ∧
        t.conn.halfCloses = s.conn.halfCloses + if t.conn.pending = [] then 1 else 0) := by
  obtain ⟨read, content, done⟩ := next_handleRead httpCallback s data
    receiveTime behind result nonempty fits
  rw [whole] at content
  obtain ⟨left, buf, called, empty, rendered⟩ :=
    onMessage_answers httpCallback read receiveTime r content
  have passes : Rejection.rejects read receiveTime = false := by
    obtain ⟨p, returned, _, ok, _⟩ := parseRequest_parsed read receiveTime _ true []
      (by rw [content, r.lines]; exact HttpContext.parseLines_rendered receiveTime r.line _ [])
    rw [Rejection.rejects, returned, Option.any_some, ok]
    rfl
  obtain ⟨t, performed, dispatched, rejected, input, output, after⟩ :=
    perform_answer httpCallback (s.setInput left) behind result connected sync
      idle alive (r.parsed receiveTime) buf
  refine ⟨t, ?_, dispatched, rejected.trans fine, ?_, ?_, after⟩
  · rw [done, messageCallback_eq httpCallback (s.setInput read) receiveTime behind result fine
      passes left _ called]
    exact performed
  · rw [input]
    exact empty
  · rw [output, rendered]
    rfl

end Server

end Tundra.Session
