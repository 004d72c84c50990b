import Mathlib.Data.List.Basic
import Tundra.Util.Buffer
import Tundra.Net.Channel

set_option autoImplicit false

/- net/TcpConnection, as far as it runs without calling back into user code: the
functions below change one connection and leave effects for its loop. -/
namespace Tundra

inductive StateE
  | kConnecting
  | kConnected
  | kDisconnecting
  | kDisconnected
deriving DecidableEq, Repr

inductive Errno
  | ewouldblock
  | epipe
  | econnreset
  | other
deriving DecidableEq, Repr

/-- The two errors sendInLoop gives up on. -/
def Errno.fatal : Errno → Bool
  | .epipe | .econnreset => true
  | .ewouldblock | .other => false

/-- The kernel's answer to write(fd, p, count): it takes the first `min n count`
bytes, or fails. -/
inductive WriteResult
  | accepted (n : Nat)
  | failed (errno : Errno)
deriving DecidableEq, Repr

/-- The answer is not one of the errors that mean the peer is gone. -/
def WriteResult.alive : WriteResult → Prop
  | .accepted _ => True
  | .failed errno => errno.fatal = false

instance : (answer : WriteResult) → Decidable answer.alive
  | .accepted _ => inferInstanceAs (Decidable True)
  | .failed errno => inferInstanceAs (Decidable (errno.fatal = false))

/-- What the process does to the socket, each write with the bytes it took. -/
inductive SocketOp
  | write (taken : Bytes)
  | shutdownWrite
deriving DecidableEq, Repr

abbrev Socket := List SocketOp

def SocketOp.taken : SocketOp → Bytes
  | .write taken => taken
  | .shutdownWrite => []

/-- The bytes accepted by the socket so far. -/
def Socket.sent (s : Socket) : Bytes := s.flatMap SocketOp.taken

/-- The arguments a queued sendInLoop is bound to: an address and a length for
the pointer overload, a copied string for the other. -/
inductive Bound
  | pointer (msg len : Nat)
  | string (msg : Bytes)
deriving DecidableEq, Repr

/-- The functors a connection leaves for its loop. -/
inductive Functor
  | writeCompleteCallback
  | highWaterMarkCallback (len : Nat)
  | sendInLoop (bound : Bound)
  | shutdownInLoop
  | forceCLoseInLoop
  | connectDestroyed
deriving DecidableEq, Repr

inductive Effect
  | queueInLoop (f : Functor)
  | runAfterForceClose
  | updateChannel (events : Events)
  | removeChannel
deriving DecidableEq, Repr

/-- A callback field is `true` when a callback has been set. -/
structure TcpConnection where
  name : Bytes
  state : StateE
  reading : Bool
  socket : Socket
  channel : Channel
  writeCompleteCallback : Bool
  highWaterMarkCallback : Bool
  highWaterMark : Nat
  inputBuffer : Buffer
  outputBuffer : Buffer
deriving DecidableEq

/-- `n` bytes read through a pointer, beginning `start` bytes behind it. Nothing
stops such a read at the end of the object the pointer was taken from. -/
def readFrom (msg : Nat → UInt8) (start n : Nat) : Bytes :=
  (List.range n).map fun i => msg (start + i)

/-- The process's memory, byte by byte. -/
abbrev Memory := Nat → UInt8

def Memory.pointer (mem : Memory) (address : Nat) : Nat → UInt8 := fun i => mem (address + i)

/-- A pointer to the first of `bytes`, with `behind` after the last one. -/
def pointerInto (bytes : Bytes) (behind : Nat → UInt8) : Nat → UInt8 :=
  fun i => bytes[i]?.getD (behind i)

namespace TcpConnection

abbrev Outcome := TcpConnection × List Effect

def create (name : Bytes) (sockfd : Int) : TcpConnection where
  name := name
  state := .kConnecting
  reading := true
  socket := []
  channel := Channel.create sockfd
  writeCompleteCallback := false
  highWaterMarkCallback := false
  highWaterMark := 64 * 1024 * 1024
  inputBuffer := Buffer.fresh
  outputBuffer := Buffer.fresh

/-- A change of the interest set reaches the loop's poller. -/
def updateChannel (c : TcpConnection) (channel : Channel) : Outcome :=
  ({ c with channel := channel }, [.updateChannel channel.events])

def wrote (c : TcpConnection) (taken : Bytes) : TcpConnection :=
  { c with socket := c.socket ++ [.write taken] }

def shutdownInLoop (c : TcpConnection) : TcpConnection :=
  if c.channel.isWriting then c else { c with socket := c.socket ++ [.shutdownWrite] }

/-- The locals of sendInLoop after its attempt to write directly. -/
structure Attempt where
  conn : TcpConnection
  nwrote : Nat
  remaining : Nat
  faultError : Bool
  effects : List Effect

/-- Nothing is queued for the socket, so sendInLoop tries it first. -/
def idle (c : TcpConnection) : Bool :=
  !c.channel.isWriting && c.outputBuffer.readableBytes == 0

def directWrite (c : TcpConnection) (msg : Nat → UInt8) (len : Nat) (answer : WriteResult) :
    Attempt :=
  if c.idle then
    match answer with
    | .accepted n =>
        let nwrote := min n len
        let remaining := len - nwrote
        { conn := c.wrote (readFrom msg 0 nwrote)
          nwrote := nwrote
          remaining := remaining
          faultError := false
          effects := if remaining = 0 ∧ c.writeCompleteCallback then
            [.queueInLoop .writeCompleteCallback] else [] }
    | .failed errno =>
        { conn := c.wrote [], nwrote := 0, remaining := len, faultError := errno.fatal,
          effects := [] }
  else
    -- both locals still have the values of their declarations
    { conn := c, nwrote := len, remaining := len, faultError := false, effects := [] }

/-- The rest of the message goes to the output buffer. -/
def queueRest (a : Attempt) (msg : Nat → UInt8) : Option Outcome :=
  let oldLen := a.conn.outputBuffer.readableBytes
  let alarm := if a.conn.highWaterMark ≤ oldLen + a.remaining ∧ oldLen < a.conn.highWaterMark ∧
      a.conn.highWaterMarkCallback then
    [Effect.queueInLoop (.highWaterMarkCallback (oldLen + a.remaining))] else []
  (a.conn.outputBuffer.append (readFrom msg a.nwrote a.remaining)).map fun out =>
    let c := { a.conn with outputBuffer := out }
    if c.channel.isWriting then (c, a.effects ++ alarm)
    else
      let r := c.updateChannel c.channel.enableWriting
      (r.1, a.effects ++ alarm ++ r.2)

def sendInLoop (c : TcpConnection) (msg : Nat → UInt8) (len : Nat) (answer : WriteResult) :
    Option Outcome :=
  if c.state = .kDisconnected then some (c, [])
  else
    let a := c.directWrite msg len answer
    if a.remaining ≤ len then
      if a.faultError = false ∧ 0 < a.remaining then queueRest a msg
      else some (a.conn, a.effects)
    else none

/-- send(const void*, int). A foreign thread leaves the pointer itself behind. -/
def send (c : TcpConnection) (mem : Memory) (msg len : Nat) (inLoopThread : Bool)
    (answer : WriteResult) : Option Outcome :=
  if c.state = .kConnected then
    if inLoopThread then c.sendInLoop (mem.pointer msg) len answer
    else some (c, [.queueInLoop (.sendInLoop (.pointer msg len))])
  else some (c, [])

/-- send(const std::string&), which passes c_str() and size() on. -/
def sendString (c : TcpConnection) (mem : Memory) (cstr size : Nat) (inLoopThread : Bool)
    (answer : WriteResult) : Option Outcome :=
  c.send mem cstr size inLoopThread answer

/-- send(Buffer*). `behind` is the memory after the buffer's storage. -/
def sendBuffer (c : TcpConnection) (buf : Buffer) (behind : Nat → UInt8) (inLoopThread : Bool)
    (answer : WriteResult) : Option (Outcome × Buffer) :=
  if c.state = .kConnected then
    if inLoopThread then
      (c.sendInLoop (pointerInto (buf.buffer.drop buf.readerIndex) behind) buf.readableBytes
        answer).map fun r => (r, buf.retrieveAll)
    else
      buf.retrieveAllAsString.map fun taken =>
        ((c, [.queueInLoop (.sendInLoop (.string taken.1))]), taken.2)
  else some ((c, []), buf)

/-- What a queued sendInLoop does when the loop runs it: the pointer is read then,
the string brings its own bytes. -/
def runSend (c : TcpConnection) (mem : Memory) (behind : Nat → UInt8) (answer : WriteResult) :
    Bound → Option Outcome
  | .pointer msg len => c.sendInLoop (mem.pointer msg) len answer
  | .string msg => c.sendInLoop (pointerInto msg behind) msg.length answer

/-- connectEstablished up to its call of connectionCallback_. -/
def connectEstablished (c : TcpConnection) : Option Outcome :=
  if c.state = .kConnecting then
    some ({ c with state := .kConnected }.updateChannel c.channel.enableReading)
  else none

/-- A new connection after connectEstablished. -/
def established (name : Bytes) (sockfd : Int) : TcpConnection :=
  { create name sockfd with
    state := .kConnected
    channel := (Channel.create sockfd).enableReading }

/-- handleClose up to its calls of connectionCallback_ and closeCallback_. -/
def handleClose (c : TcpConnection) : Option Outcome :=
  if c.state = .kConnected ∨ c.state = .kDisconnecting then
    some ({ c with state := .kDisconnected }.updateChannel c.channel.disableAll)
  else none

/-- The branch of connectDestroyed for a connection that is still up, up to its
call of connectionCallback_. -/
def takeDown (c : TcpConnection) : Outcome :=
  { c with state := .kDisconnected }.updateChannel c.channel.disableAll

/-- The end of connectDestroyed. -/
def removeChannel (c : TcpConnection) : Option Outcome :=
  c.channel.remove.map fun channel => ({ c with channel := channel }, [.removeChannel])

/-- The end of handleWrite once the buffer has drained. -/
def drained (c : TcpConnection) : Outcome :=
  let r := c.updateChannel c.channel.disableWriting
  let done := if c.writeCompleteCallback then [Effect.queueInLoop .writeCompleteCallback] else []
  (if r.1.state = .kDisconnecting then r.1.shutdownInLoop else r.1, r.2 ++ done)

def handleWrite (c : TcpConnection) (answer : WriteResult) : Option Outcome :=
  if c.channel.isWriting then
    match answer with
    | .accepted n =>
        let n := min n c.outputBuffer.readableBytes
        let c := c.wrote (c.outputBuffer.content.take n)
        if 0 < n then
          (c.outputBuffer.retrieve n).map fun out =>
            let c := { c with outputBuffer := out }
            if out.readableBytes = 0 then c.drained else (c, [])
        else some (c, [])
    | .failed _ => some (c.wrote [], [])
  else some (c, [])

/-- The compare-and-swap of shutdown; the functor runs at once on the loop thread
and is queued from any other. -/
def shutdown (c : TcpConnection) (inLoopThread : Bool) : Outcome :=
  if c.state = .kConnected then
    let c := { c with state := .kDisconnecting }
    if inLoopThread then (c.shutdownInLoop, []) else (c, [.queueInLoop .shutdownInLoop])
  else (c, [])

def forceClose (c : TcpConnection) : Outcome :=
  if c.state = .kConnected ∨ c.state = .kDisconnecting then
    ({ c with state := .kDisconnecting }, [.queueInLoop .forceCLoseInLoop])
  else (c, [])

def forceCLoseWithDelay (c : TcpConnection) : Outcome :=
  if c.state = .kConnected ∨ c.state = .kDisconnecting then
    ({ c with state := .kDisconnecting }, [.runAfterForceClose])
  else (c, [])

/-- startReadInLoop and stopReadInLoop are run at once on the loop thread. -/
def startReadInLoop (c : TcpConnection) : Outcome :=
  if !c.reading || !c.channel.isReading then
    { c with reading := true }.updateChannel c.channel.enableReading
  else (c, [])

def stopReadInLoop (c : TcpConnection) : Outcome :=
  if c.reading || c.channel.isReading then
    { c with reading := false }.updateChannel c.channel.disableReading
  else (c, [])

def forceCLoseInLoop (c : TcpConnection) : Option Outcome :=
  if c.state = .kConnected ∨ c.state = .kDisconnecting then c.handleClose else some (c, [])

/-- handleRead up to its call of messageCallback_. -/
def handleRead (c : TcpConnection) (input : Option Bytes) : Option Outcome :=
  (c.inputBuffer.readFd input).bind fun read =>
    match c.inputBuffer.readFdCount input with
    | some 0 => { c with inputBuffer := read }.handleClose
    | _ => some ({ c with inputBuffer := read }, [])

end TcpConnection
end Tundra
