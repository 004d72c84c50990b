import Mathlib.Data.List.Basic
import Tundra.Http.Segmentation

set_option autoImplicit false

/- Several requests in one read. onMessage parses once and dispatches at most one
request; what is behind it stays in the buffer until the connection has more to read. -/
namespace Tundra.Pipelining

open Library HttpContext HttpServer Segmentation

/-- The connection is to be closed after the response, as onRequest decides before the
callback. -/
def wantsClose (req : HttpRequest) : Bool :=
  let connection := req.getHeader (ascii "Connection")
  connection = ascii "close" ∨ (req.version = .kHttp10 ∧ connection ≠ ascii "Keep-Alive")

/-- The response that the callback makes closes the connection. -/
def closes (httpCallback : HttpCallback) (req : HttpRequest) : Bool :=
  (httpCallback req (HttpResponse.create (wantsClose req))).closeConnection

/-- onRequest shuts the connection down exactly for these responses. -/
theorem shutdown_iff_closes (httpCallback : HttpCallback) (req : HttpRequest)
    (actions : List HttpAction) (answered : onRequest httpCallback req = some actions) :
    .shutdown ∈ actions ↔ closes httpCallback req = true := by
  have written : onRequest httpCallback req =
      ((httpCallback req (HttpResponse.create (wantsClose req))).appendToBuffer
        Buffer.fresh).map fun buf =>
          [.httpCallback req, .sendBuffer buf] ++
            if closes httpCallback req then [.shutdown] else [] := rfl
  rw [written] at answered
  obtain ⟨buf, _, same⟩ := Option.map_eq_some_iff.mp answered
  rw [← same]
  by_cases closing : closes httpCallback req = true
  · simp [closing]
  · simp [closing]

/-- One read of `text` into the buffer: the callback is called for the requests in
their order, for all of them or up to one whose response closes the connection. -/
def Served (httpCallback : HttpCallback) (inputBuffer : Buffer) (text : Bytes)
    (receiveTime : TimeStamp) (requests : List HttpRequest) : Prop :=
  ∃ buf actions, reads httpCallback inputBuffer [(text, receiveTime)] = some (buf, actions) ∧
    (dispatched actions = requests ∨
      ∃ served last, served ++ [last] <+: requests ∧ dispatched actions = served ++ [last] ∧
        closes httpCallback last = true)

/-- A request at the front of what one read delivers is dispatched, and nothing behind
it is. -/
theorem reads_first (httpCallback : HttpCallback) (b : Buffer) (idle : b.content = [])
    (text more : Bytes) (receiveTime : TimeStamp) (request : HttpRequest)
    (whole : Whole httpCallback text receiveTime request) :
    ∃ buf actions, reads httpCallback b [(text ++ more, receiveTime)] = some (buf, actions) ∧
      dispatched actions = [request] ∧ buf.content = more := by
  obtain ⟨line, headers, last, made, split, accepted, colons, ends, rfl⟩ :=
    whole_lines httpCallback text receiveTime request whole
  obtain ⟨c, content, first⟩ := reads_cons httpCallback b (text ++ more) receiveTime []
  rw [idle, List.nil_append] at content
  have joined : splitLines 13 10 c.content =
      (line :: (headers ++ last :: (splitLines 13 10 more).1), (splitLines 13 10 more).2) := by
    rw [content, splitLines_append, split]
    simp
  obtain ⟨r, actions, done, _, once, left⟩ := onMessage_dispatch httpCallback c receiveTime line
    headers last (splitLines 13 10 more).1 made (by rw [joined]) accepted colons ends
  refine ⟨r, actions, ?_, once, ?_⟩
  · simp only [first, done, Option.bind_some]
    simp only [reads, Option.map_some, List.append_nil]
  · rw [left, joined]
    exact unlines_splitLines more

/-- Requests that arrive in one read are all served exactly when there is only one of
them or the response to the first one closes the connection. -/
theorem pipelined_served_iff (httpCallback : HttpCallback) (inputBuffer : Buffer)
    (idle : inputBuffer.content = []) (receiveTime : TimeStamp) (first : Bytes × HttpRequest)
    (others : List (Bytes × HttpRequest))
    (alone : ∀ r ∈ first :: others, Whole httpCallback r.1 receiveTime r.2) :
    Served httpCallback inputBuffer ((first :: others).map Prod.fst).flatten receiveTime
        ((first :: others).map Prod.snd) ↔
      others = [] ∨ closes httpCallback first.2 = true := by
  obtain ⟨buf, actions, read, once, _⟩ := reads_first httpCallback inputBuffer idle first.1
    (others.map Prod.fst).flatten receiveTime first.2 (alone first List.mem_cons_self)
  rw [List.map_cons, List.flatten_cons, List.map_cons]
  constructor
  · rintro ⟨buf', actions', read', served⟩
    rw [read, Option.some.injEq, Prod.mk.injEq] at read'
    rw [← read'.2, once] at served
    rcases served with all | ⟨served, last, _, same, closed⟩
    · left
      rw [List.cons.injEq] at all
      exact List.map_eq_nil_iff.mp all.2.symm
    · right
      have only : [] ++ [first.2] = served ++ [last] := same
      rw [List.append_singleton_inj] at only
      rwa [only.2]
  · intro condition
    refine ⟨buf, actions, read, ?_⟩
    rcases condition with none | closed
    · left
      rw [once, none, List.map_nil]
    · right
      exact ⟨[], first.2, List.prefix_append [first.2] _, once, closed⟩

/-- A request that asks for the connection to be closed. -/
def lastRequest : HttpRequest := plainRequest.addHeader (ascii "Connection: close") 10

def lastText : Bytes := ascii "GET / HTTP/1.1\r\nConnection: close\r\n\r\n"

theorem last_whole : Whole plainCallback lastText 0 lastRequest := by
  have made : lastRequest = { plainRequest with
      headers := addHeaders plainRequest.headers [ascii "Connection: close"] } := by
    decide +kernel
  rw [made]
  exact whole_of_lines plainCallback lastText 0 (ascii "GET / HTTP/1.1")
    [ascii "Connection: close"] plainRequest (by decide +kernel) plain_accepted
    (by decide +kernel)

/-- Two requests in one read, the first of which is answered with a close. -/
theorem pipelined_served_alone :
    Served plainCallback Buffer.fresh [lastText, plainText].flatten 0
      [lastRequest, plainRequest] := by
  have alone : ∀ r ∈ [(lastText, lastRequest), (plainText, plainRequest)],
      Whole plainCallback r.1 0 r.2 := by
    intro r member
    rcases List.mem_cons.mp member with rfl | other
    · exact last_whole
    · rw [List.mem_singleton.mp other]
      exact plain_whole
  exact (pipelined_served_iff plainCallback Buffer.fresh Buffer.fresh_content 0
    (lastText, lastRequest) [(plainText, plainRequest)] alone).mpr (Or.inr (by decide +kernel))

/-- Two requests in one read: the second one waits in the buffer. -/
theorem pipelined_request_waits :
    Whole plainCallback plainText 0 plainRequest ∧
      (∃ buf actions, reads plainCallback Buffer.fresh [(plainText ++ plainText, 0)] =
          some (buf, actions) ∧ dispatched actions = [plainRequest] ∧ buf.content = plainText) ∧
      ¬ Served plainCallback Buffer.fresh [plainText, plainText].flatten 0
        [plainRequest, plainRequest] := by
  have read := reads_first plainCallback Buffer.fresh Buffer.fresh_content plainText plainText 0
    plainRequest plain_whole
  refine ⟨plain_whole, read, ?_⟩
  obtain ⟨buf, actions, done, once, _⟩ := read
  rintro ⟨buf', actions', done', served⟩
  have joined : [plainText, plainText].flatten = plainText ++ plainText := by simp
  rw [joined, done, Option.some.injEq, Prod.mk.injEq] at done'
  rw [← done'.2, once] at served
  rcases served with all | ⟨served, last, _, same, closed⟩
  · cases all
  · have only : [] ++ [plainRequest] = served ++ [last] := same
    rw [List.append_singleton_inj] at only
    have open_ : closes plainCallback plainRequest = false := by decide +kernel
    rw [← only.2, open_] at closed
    cases closed

end Tundra.Pipelining
