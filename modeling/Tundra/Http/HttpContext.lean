import Mathlib.Data.List.Basic
import Tundra.Util.BufferQueue
import Tundra.Http.HttpRequest

set_option autoImplicit false

/- http/HttpContext: the request parser. One pass through the loop of parseRequest
is a function of its own, since the loop need not end in every parse state. -/
namespace Tundra

open Library

inductive HttpRequestParseState
  | kExpectRequestLine
  | kExpectHeaders
  | kExpectody
  | kGotAll
deriving DecidableEq, Repr

structure HttpContext where
  state : HttpRequestParseState
  request : HttpRequest
deriving DecidableEq

namespace HttpContext

def create : HttpContext := ⟨.kExpectRequestLine, HttpRequest.create⟩

def gotAll (c : HttpContext) : Bool := c.state == .kGotAll

/-- The request is swapped with a fresh one. -/
def reset (c : HttpContext) : HttpContext :=
  { c with state := .kExpectRequestLine, request := HttpRequest.create }

/-- The target of a request line, cut at its question mark. -/
def setTarget (r : HttpRequest) (target : Bytes) : HttpRequest :=
  let question := findByte target 63
  if question ≠ target.length then
    (r.setPath (target.take question)).setQuery (target.drop question)
  else r.setPath target

/-- The part of a request line behind its second space. -/
def setProtocol (r : HttpRequest) (protocol : Bytes) : HttpRequest × Bool :=
  if protocol.length = 8 ∧ protocol.take 7 = ascii "HTTP/1." then
    if protocol[7]? = some 49 then (r.setVersion .kHttp11, true)
    else if protocol[7]? = some 48 then (r.setVersion .kHttp10, true)
    else (r, false)
  else (r, false)

/-- The request keeps what has been set before a failure. -/
def processRequestLine (c : HttpContext) (line : Bytes) : Option (HttpContext × Bool) :=
  let space := findByte line 32
  if space ≠ line.length then
    (c.request.setMethod (line.take space)).map fun (request, known) =>
      if known then
        let rest := line.drop (space + 1)
        let space := findByte rest 32
        if space ≠ rest.length then
          let r := setProtocol (setTarget request (rest.take space)) (rest.drop (space + 1))
          ({ c with request := r.1 }, r.2)
        else ({ c with request := request }, false)
      else ({ c with request := request }, false)
  else some (c, false)

/-- The locals of parseRequest and the two objects it works on. -/
structure Parsing where
  context : HttpContext
  buf : Buffer
  ok : Bool
  hasMore : Bool

/-- One pass through the loop. Nothing is done in the states kExpectody and kGotAll,
not even to hasMore. -/
def parsePass (receiveTime : TimeStamp) (p : Parsing) : Option Parsing :=
  match p.context.state with
  | .kExpectRequestLine =>
      match p.buf.findCRLF with
      | some crlf =>
          (p.context.processRequestLine (p.buf.content.take crlf)).bind fun (context, ok) =>
            if ok then
              (p.buf.retrieveUntil (crlf + 2)).map fun buf =>
                { p with
                  context := ⟨.kExpectHeaders, context.request.setReceiveTime receiveTime⟩
                  buf := buf
                  ok := ok }
            else some { p with context := context, ok := ok, hasMore := false }
      | none => some { p with hasMore := false }
  | .kExpectHeaders =>
      match p.buf.findCRLF with
      | some crlf =>
          let line := p.buf.content.take crlf
          let colon := findByte line 58
          (p.buf.retrieveUntil (crlf + 2)).map fun buf =>
            if colon ≠ crlf then
              { p with
                context := ⟨.kExpectHeaders, p.context.request.addHeader line colon⟩
                buf := buf }
            else { p with context := ⟨.kGotAll, p.context.request⟩, buf := buf, hasMore := false }
      | none => some { p with hasMore := false }
  | .kExpectody | .kGotAll => some p

/-- At most `passes` passes through the loop. -/
def parseLoop (receiveTime : TimeStamp) : Nat → Parsing → Option Parsing
  | 0, p => some p
  | passes + 1, p =>
      if p.hasMore then (parsePass receiveTime p).bind (parseLoop receiveTime passes) else some p

/-- As many passes as a buffer of this size can need: each but the last one takes
a line of it. -/
def parseRequest (c : HttpContext) (buf : Buffer) (receiveTime : TimeStamp) : Option Parsing :=
  parseLoop receiveTime (buf.readableBytes + 1) ⟨c, buf, true, true⟩

end HttpContext
end Tundra
