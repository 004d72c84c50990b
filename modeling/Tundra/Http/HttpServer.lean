import Mathlib.Data.List.Basic
import Tundra.Http.HttpLines
import Tundra.Http.HttpResponse

set_option autoImplicit false

/- http/HttpServer: what one read on a connection makes the server do. -/
namespace Tundra

open Library

/-- httpCallback_, which fills in the response it is given. -/
abbrev HttpCallback := HttpRequest → HttpResponse → HttpResponse

/-- The calls the server makes on the user's callback and on the connection. -/
inductive HttpAction
  | httpCallback (req : HttpRequest)
  | sendString (text : Bytes)
  | sendBuffer (buf : Buffer)
  | shutdown
deriving DecidableEq

namespace HttpServer

def badRequest : Bytes := ascii "HTTP/1.1 400 Bad Request\r\n\r\n"

def onRequest (httpCallback : HttpCallback) (req : HttpRequest) : Option (List HttpAction) :=
  let connection := req.getHeader (ascii "Connection")
  let close := connection = ascii "close" ∨
    (req.version = .kHttp10 ∧ connection ≠ ascii "Keep-Alive")
  let response := httpCallback req (HttpResponse.create close)
  (response.appendToBuffer Buffer.fresh).map fun buf =>
    [.httpCallback req, .sendBuffer buf] ++
      if response.closeConnection then [.shutdown] else []

/-- The context is a local variable: each call parses with a new one. -/
def onMessage (httpCallback : HttpCallback) (buf : Buffer) (receiveTime : TimeStamp) :
    Option (Buffer × List HttpAction) :=
  (HttpContext.create.parseRequest buf receiveTime).bind fun p =>
    let refusal := if p.ok then [] else [.sendString badRequest, .shutdown]
    if p.context.gotAll then
      (onRequest httpCallback p.context.request).map fun answer => (p.buf, refusal ++ answer)
    else some (p.buf, refusal)

/-- Successive reads of one connection, each with the bytes it delivered and the
time poll returned. readFd leaves the bytes behind those already readable. -/
def reads (httpCallback : HttpCallback) : Buffer → List (Bytes × TimeStamp) →
    Option (Buffer × List HttpAction)
  | inputBuffer, [] => some (inputBuffer, [])
  | inputBuffer, (delivered, receiveTime) :: rest =>
      (inputBuffer.append delivered).bind fun buf =>
        (onMessage httpCallback buf receiveTime).bind fun (buf, actions) =>
          (reads httpCallback buf rest).map fun (buf, later) => (buf, actions ++ later)

/-- The requests dispatched to httpCallback_, in order. -/
def dispatched (actions : List HttpAction) : List HttpRequest :=
  actions.filterMap fun
    | .httpCallback req => some req
    | _ => none

/-- A 400 has been answered. -/
def Refused (actions : List HttpAction) : Prop := .sendString badRequest ∈ actions

theorem onRequest_dispatched (httpCallback : HttpCallback) (req : HttpRequest) :
    ∃ actions, onRequest httpCallback req = some actions ∧ dispatched actions = [req] ∧
      ¬ Refused actions := by
  unfold onRequest HttpResponse.appendToBuffer
  dsimp only
  obtain ⟨buf, rendered, _⟩ := Buffer.append_pieces
    (httpCallback req (HttpResponse.create (decide (req.getHeader (ascii "Connection") =
      ascii "close" ∨ (req.version = .kHttp10 ∧
        req.getHeader (ascii "Connection") ≠ ascii "Keep-Alive"))))).pieces Buffer.fresh
  rw [rendered, Option.map_some]
  refine ⟨_, rfl, ?_, ?_⟩
  · split <;> rfl
  · unfold Refused
    split <;> simp

open HttpContext

/-- parseRequest on a fresh context, from what parseLines makes of the lines. -/
theorem parseRequest_parsed (b : Buffer) (receiveTime : TimeStamp)
    (c : HttpContext) (ok : Bool) (left : List Bytes)
    (parsed : parseLines receiveTime create (splitLines 13 10 b.content).1 = some (c, ok, left)) :
    ∃ p, create.parseRequest b receiveTime = some p ∧ p.context = c ∧ p.ok = ok ∧
      p.buf.content = unlines 13 10 left ++ (splitLines 13 10 b.content).2 := by
  have lines := parseRequest_lines receiveTime create (Or.inl rfl) b
  rw [parsed] at lines
  cases done : create.parseRequest b receiveTime with
  | none => simp [done] at lines
  | some p =>
      simp only [done, Option.map_some, Option.some.injEq, Parsing.view, Prod.mk.injEq] at lines
      exact ⟨p, rfl, lines.1, lines.2.1, lines.2.2.2⟩

/-- No line is complete yet: the bytes wait for more. -/
theorem onMessage_wait (httpCallback : HttpCallback) (b : Buffer) (receiveTime : TimeStamp)
    (none : (splitLines 13 10 b.content).1 = []) :
    ∃ r, onMessage httpCallback b receiveTime = some (r, []) ∧ r.content = b.content := by
  obtain ⟨p, parsed, context, ok, content⟩ := parseRequest_parsed b receiveTime create
    true [] (by rw [none]; rfl)
  have whole := unlines_splitLines (a := 13) (b := 10) b.content
  refine ⟨p.buf, ?_, ?_⟩
  · rw [onMessage, parsed, Option.bind_some, context, ok]
    rfl
  · rw [content, ← none, whole]

/-- The first line is no request line: 400, and the bytes stay where they are. -/
theorem onMessage_rejected (httpCallback : HttpCallback) (b : Buffer) (receiveTime : TimeStamp)
    (line : Bytes) (rest : List Bytes) (lines : (splitLines 13 10 b.content).1 = line :: rest)
    (refused : requestLine line = none) :
    ∃ r, onMessage httpCallback b receiveTime = some (r, [.sendString badRequest, .shutdown]) ∧
      r.content = b.content := by
  obtain ⟨c, failed, unfinished⟩ := parseLines_refused receiveTime line rest refused
  obtain ⟨p, parsed, context, ok, content⟩ := parseRequest_parsed b receiveTime c false
    (line :: rest) (by rw [lines, failed])
  refine ⟨p.buf, ?_, ?_⟩
  · rw [onMessage, parsed, Option.bind_some, context, ok, unfinished]
    rfl
  · rw [content, ← lines, unlines_splitLines]

theorem onMessage_refuse (httpCallback : HttpCallback) (b : Buffer) (receiveTime : TimeStamp)
    (line : Bytes) (rest : List Bytes) (lines : (splitLines 13 10 b.content).1 = line :: rest)
    (refused : requestLine line = none) :
    ∃ r actions, onMessage httpCallback b receiveTime = some (r, actions) ∧ Refused actions ∧
      dispatched actions = [] := by
  obtain ⟨r, done, _⟩ := onMessage_rejected httpCallback b receiveTime line rest lines refused
  exact ⟨r, _, done, List.mem_cons_self, rfl⟩

/-- A request line and only header lines: they are consumed, and the request they
make is dropped with the context. -/
theorem onMessage_drop (httpCallback : HttpCallback) (b : Buffer) (receiveTime : TimeStamp)
    (line : Bytes) (rest : List Bytes) (request : HttpRequest)
    (lines : (splitLines 13 10 b.content).1 = line :: rest)
    (accepted : requestLine line = some request) (headers : ∀ l ∈ rest, isHeader l = true) :
    ∃ r, onMessage httpCallback b receiveTime = some (r, []) ∧
      r.content = (splitLines 13 10 b.content).2 := by
  have taken := parseLines_headers receiveTime (request.setReceiveTime receiveTime) rest [] headers
  rw [List.append_nil] at taken
  obtain ⟨p, parsed, context, ok, content⟩ := parseRequest_parsed b receiveTime _ true []
    (by rw [lines, parseLines_accepted _ _ _ _ accepted, taken, parseLines])
  refine ⟨p.buf, ?_, by rw [content, unlines_nil, List.nil_append]⟩
  rw [onMessage, parsed, Option.bind_some, context, ok]
  rfl

/-- A request line, header lines and a line that ends them: the request goes to the
callback. -/
theorem onMessage_dispatch (httpCallback : HttpCallback) (b : Buffer) (receiveTime : TimeStamp)
    (line : Bytes) (headers : List Bytes) (last : Bytes) (more : List Bytes)
    (request : HttpRequest)
    (lines : (splitLines 13 10 b.content).1 = line :: (headers ++ last :: more))
    (accepted : requestLine line = some request) (colons : ∀ l ∈ headers, isHeader l = true)
    (ends : isHeader last = false) :
    ∃ r actions, onMessage httpCallback b receiveTime = some (r, actions) ∧ ¬ Refused actions ∧
      dispatched actions = [{ request with
        receiveTime := receiveTime, headers := addHeaders request.headers headers }] ∧
      r.content = unlines 13 10 more ++ (splitLines 13 10 b.content).2 := by
  obtain ⟨p, parsed, context, ok, content⟩ := parseRequest_parsed b receiveTime _ true
    more (by rw [lines, parseLines_accepted _ _ _ _ accepted,
      parseLines_headers _ _ _ _ colons, parseLines_end _ _ _ _ ends])
  obtain ⟨actions, answered, once, unrefused⟩ := onRequest_dispatched httpCallback
    p.context.request
  refine ⟨p.buf, actions, ?_, unrefused, ?_, content⟩
  · have got : p.context.gotAll = true := by rw [context]; rfl
    simp only [onMessage, parsed, Option.bind_some, ok, got, ↓reduceIte, answered, Option.map_some,
      List.nil_append]
  · rw [once, context]
    rfl

/-- Header lines up to the first line that is none. -/
theorem span_headers (lines : List Bytes) :
    (∀ l ∈ lines, isHeader l = true) ∨
      ∃ headers last more, lines = headers ++ last :: more ∧
        (∀ l ∈ headers, isHeader l = true) ∧ isHeader last = false := by
  induction lines with
  | nil => exact Or.inl fun _ member => by cases member
  | cons line rest ih =>
      cases colon : isHeader line with
      | false => exact Or.inr ⟨[], line, rest, rfl, by simp, colon⟩
      | true =>
          rcases ih with all | ⟨headers, last, more, rfl, colons, ends⟩
          · left
            intro l member
            rcases List.mem_cons.mp member with rfl | later
            · exact colon
            · exact all l later
          · right
            refine ⟨line :: headers, last, more, rfl, ?_, ends⟩
            intro l member
            rcases List.mem_cons.mp member with rfl | later
            · exact colon
            · exact colons l later

theorem onMessage_total (httpCallback : HttpCallback) (b : Buffer) (receiveTime : TimeStamp) :
    ∃ result, onMessage httpCallback b receiveTime = some result := by
  cases lines : (splitLines 13 10 b.content).1 with
  | nil =>
      obtain ⟨r, done, _⟩ := onMessage_wait httpCallback b receiveTime lines
      exact ⟨_, done⟩
  | cons line rest =>
      cases first : requestLine line with
      | none =>
          obtain ⟨r, actions, done, _⟩ :=
            onMessage_refuse httpCallback b receiveTime line rest lines first
          exact ⟨_, done⟩
      | some request =>
          rcases span_headers rest with all | ⟨headers, last, more, rfl, colons, ends⟩
          · obtain ⟨r, done, _⟩ :=
              onMessage_drop httpCallback b receiveTime line rest request lines first all
            exact ⟨_, done⟩
          · obtain ⟨r, actions, done, _⟩ := onMessage_dispatch httpCallback b receiveTime line
              headers last more request lines first colons ends
            exact ⟨_, done⟩

theorem reads_total (httpCallback : HttpCallback) (deliveries : List (Bytes × TimeStamp))
    (b : Buffer) : ∃ result, reads httpCallback b deliveries = some result := by
  induction deliveries generalizing b with
  | nil => exact ⟨_, rfl⟩
  | cons delivery rest ih =>
      obtain ⟨c, appended, _⟩ := Buffer.append_content b delivery.1
      obtain ⟨⟨d, actions⟩, done⟩ := onMessage_total httpCallback c delivery.2
      obtain ⟨⟨e, later⟩, read⟩ := ih d
      refine ⟨(e, actions ++ later), ?_⟩
      simp only [reads, appended, Option.bind_some, done, read, Option.map_some]

/-- The first of the deliveries, with the call of onMessage it leads to. -/
theorem reads_cons (httpCallback : HttpCallback) (b : Buffer) (delivered : Bytes)
    (receiveTime : TimeStamp) (rest : List (Bytes × TimeStamp)) :
    ∃ c, c.content = b.content ++ delivered ∧
      reads httpCallback b ((delivered, receiveTime) :: rest) =
        (onMessage httpCallback c receiveTime).bind fun (d, actions) =>
          (reads httpCallback d rest).map fun (e, later) => (e, actions ++ later) := by
  obtain ⟨c, appended, content⟩ := Buffer.append_content b delivered
  exact ⟨c, content, by rw [reads, appended, Option.bind_some]⟩

theorem reads_append (httpCallback : HttpCallback) (b : Buffer)
    (deliveries more : List (Bytes × TimeStamp)) :
    reads httpCallback b (deliveries ++ more) =
      (reads httpCallback b deliveries).bind fun (c, actions) =>
        (reads httpCallback c more).map fun (d, later) => (d, actions ++ later) := by
  induction deliveries generalizing b with
  | nil => simp [reads]
  | cons delivery rest ih =>
      simp only [List.cons_append, reads, ih, Option.bind_assoc, Option.map_bind,
        Option.bind_map, Option.map_map, Function.comp_def, List.append_assoc]

end HttpServer
end Tundra
