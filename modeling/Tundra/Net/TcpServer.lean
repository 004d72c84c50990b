import Mathlib.Algebra.Group.Nat.Defs
import Tundra.Library.Machine
import Tundra.Library.OrderedMap
import Tundra.Net.InetAddress
import Tundra.Net.TcpSend

set_option autoImplicit false

/- net/TcpServer without worker threads, together with its connections and the loop
they all live on. User code and the kernel answer through the labels of the steps:
what a callback does is the list of the calls it makes. -/
namespace Tundra

open Library (Machine OrderedMap)

/-- Where a state stands in the life of a connection. -/
def StateE.rank : StateE → Nat
  | .kConnecting => 0
  | .kConnected => 1
  | .kDisconnecting => 2
  | .kDisconnected => 3

/-- What is called for a connection in the course of its life. -/
inductive Call
  | connectionCallback (connected : Bool)
  | closeCallback
  | connectDestroyed
deriving DecidableEq, Repr

/-- A TcpConnection with a record of its past: the values state_ has had, and the
calls made for it. An object stays in the model when the last pointer to it goes. -/
structure ConnectionObject where
  conn : TcpConnection
  states : List StateE
  calls : List Call

namespace ConnectionObject

def create (conn : TcpConnection) : ConnectionObject := ⟨conn, [conn.state], []⟩

def moveTo (conn : TcpConnection) (o : ConnectionObject) : ConnectionObject :=
  { o with conn := conn, states := o.states ++ [conn.state] }

def note (call : TcpConnection → Call) (o : ConnectionObject) : ConnectionObject :=
  { o with calls := o.calls ++ [call o.conn] }

end ConnectionObject

/-- A signed 32-bit counter after the value before it. -/
def wrapInt (n : Int) : Int := n.bmod (2 ^ 32)

/-- connections_ maps a name to the pointer, here the number of the object in the
order of creation. -/
structure TcpServer where
  ipPort : Bytes
  name : Bytes
  writeCompleteCallback : Bool
  nextConnId : Int
  connections : OrderedMap Bytes Nat

namespace TcpServer

def create (listenAddr : InetAddress) (name : Bytes) (writeCompleteCallback : Bool) :
    TcpServer where
  ipPort := listenAddr.toIpPort
  name := name
  writeCompleteCallback := writeCompleteCallback
  nextConnId := 1
  connections := OrderedMap.empty

/-- The name newConnection makes for the connection with this number. -/
def connName (server : TcpServer) (id : Int) : Bytes :=
  server.name ++
    snprintf 64 (ascii "-" ++ server.ipPort ++ ascii "#" ++ formatInt id)

/-- A call that user code makes on the loop thread; a send comes with the memory its
argument lives in and the kernel's answer. -/
inductive UserCall
  | send (conn : Nat) (arg : SendArg) (mem : Memory) (behind : Nat → UInt8)
      (answer : WriteResult)
  | shutdown (conn : Nat)
  | forceClose (conn : Nat)
  | forceCLoseWithDelay (conn : Nat)

/-- The server, every connection it has made, and the loop: the reported channels
that are still to be handled, the queue, the batch of functors being run and the
timers set by forceCLoseWithDelay. -/
structure State where
  server : TcpServer
  objects : List ConnectionObject
  activeChannels : List (Nat × Revents)
  pendingFunctors : List (Nat × Functor)
  functors : List (Nat × Functor)
  timers : List Nat

namespace State

def setConn (s : State) (i : Nat) (conn : TcpConnection) : State :=
  { s with objects := s.objects.modify i (ConnectionObject.moveTo conn) }

def note (s : State) (i : Nat) (call : TcpConnection → Call) : State :=
  { s with objects := s.objects.modify i (ConnectionObject.note call) }

/-- The poller keeps its own tables, which nothing here reads. -/
def effect (i : Nat) (s : State) : Effect → State
  | .queueInLoop f => { s with pendingFunctors := s.pendingFunctors ++ [(i, f)] }
  | .runAfterForceClose => { s with timers := s.timers ++ [i] }
  | .updateChannel _ | .removeChannel => s

/-- An operation of the connection itself. Nobody holds a pointer to a connection
that has not been made, so on such a number nothing happens. -/
def apply (s : State) (i : Nat) (op : TcpConnection → Option TcpConnection.Outcome) :
    Option State :=
  match s.objects[i]? with
  | none => some s
  | some o => (op o.conn).map fun r => r.2.foldl (effect i) (s.setConn i r.1)

def userCall (s : State) : UserCall → Option State
  | .send i arg mem behind answer =>
      s.apply i fun c => (c.sendArg mem behind true answer arg).map Prod.fst
  | .shutdown i => s.apply i fun c => some (c.shutdown true)
  | .forceClose i => s.apply i fun c => some c.forceClose
  | .forceCLoseWithDelay i => s.apply i fun c => some c.forceCLoseWithDelay

def userCalls (s : State) : List UserCall → Option State
  | [] => some s
  | call :: rest => (s.userCall call).bind fun t => t.userCalls rest

/-- connectionCallback_ is called with the connection, which tells it whether it is
up by connected(). -/
def connectionCallback (s : State) (i : Nat) (calls : List UserCall) : Option State :=
  (s.note i fun c => .connectionCallback (c.state == .kConnected)).userCalls calls

def removeConnectionInLoop (s : State) (i : Nat) : Option State :=
  match s.objects[i]? with
  | none => none
  | some o =>
      let n := s.server.connections.count o.conn.name
      let connections := s.server.connections.erase o.conn.name
      if n = 1 then
        some { s with
          server := { s.server with connections := connections }
          pendingFunctors := s.pendingFunctors ++ [(i, .connectDestroyed)] }
      else none

/-- runInLoop on the loop thread itself, so the call is made at once. -/
def removeConnection (s : State) (i : Nat) : Option State := s.removeConnectionInLoop i

def handleClose (s : State) (i : Nat) (calls : List UserCall) : Option State :=
  (s.apply i TcpConnection.handleClose).bind fun t =>
    (t.connectionCallback i calls).bind fun u =>
      (u.note i fun _ => .closeCallback).removeConnection i

def connectEstablished (s : State) (i : Nat) (calls : List UserCall) : Option State :=
  (s.apply i TcpConnection.connectEstablished).bind fun t => t.connectionCallback i calls

def connectDestroyed (s : State) (i : Nat) (calls : List UserCall) : Option State :=
  let s := s.note i fun _ => .connectDestroyed
  match s.objects[i]? with
  | none => some s
  | some o =>
      (if o.conn.state = .kConnected then
          (s.apply i fun c => some c.takeDown).bind fun t => t.connectionCallback i calls
        else some s).bind fun t => t.apply i TcpConnection.removeChannel

/-- What the kernel and the user code answer while one channel is handled: the data
of the read, the result of the write, the calls in the two callbacks, and the input
buffer as messageCallback_ leaves it. -/
structure Answers where
  input : Option Bytes
  written : WriteResult
  onConnection : List UserCall
  onMessage : List UserCall
  inputLeft : Buffer

def messageCallback (s : State) (i : Nat) (answers : Answers) : Option State :=
  (s.apply i fun c => some ({ c with inputBuffer := answers.inputLeft }, [])).bind fun t =>
    t.userCalls answers.onMessage

/-- handleError only asks for the pending error and logs it. -/
def handleError (s : State) : State := s

def handleRead (s : State) (i : Nat) (answers : Answers) : Option State :=
  match s.objects[i]? with
  | none => some s
  | some o =>
      (s.apply i fun c => (c.inputBuffer.readFd answers.input).map fun read =>
          ({ c with inputBuffer := read }, [])).bind fun t =>
        match o.conn.inputBuffer.readFdCount answers.input with
        | none => some t.handleError
        | some 0 => t.handleClose i answers.onConnection
        | some _ => t.messageCallback i answers

def callback (s : State) (i : Nat) (answers : Answers) : Callback → Option State
  | .close => s.handleClose i answers.onConnection
  | .error => some s.handleError
  | .read => s.handleRead i answers
  | .write => s.apply i fun c => c.handleWrite answers.written

def callbacks (s : State) (i : Nat) (answers : Answers) : List Callback → Option State
  | [] => some s
  | first :: rest => (s.callback i answers first).bind fun t => t.callbacks i answers rest

/-- Channel::handleEvent. The channel is tied to its connection, which is alive as
long as connections_ holds it. -/
def handleEvent (s : State) (i : Nat) (revents : Revents) (answers : Answers) : Option State :=
  s.callbacks i answers revents.handleEventWithGuard

def forceCLoseInLoop (s : State) (i : Nat) (calls : List UserCall) : Option State :=
  match s.objects[i]? with
  | none => some s
  | some o =>
      if o.conn.state = .kConnected ∨ o.conn.state = .kDisconnecting then s.handleClose i calls
      else some s

/-- What a functor finds when it runs: the memory, the kernel's answer, and the calls
of a user callback. -/
structure Surroundings where
  mem : Memory
  behind : Nat → UInt8
  written : WriteResult
  calls : List UserCall

def runFunctor (s : State) (i : Nat) (around : Surroundings) : Functor → Option State
  | .writeCompleteCallback => s.userCalls around.calls
  | .highWaterMarkCallback _ => s.userCalls around.calls
  | .sendInLoop bound =>
      s.apply i fun c => c.runSend around.mem around.behind around.written bound
  | .shutdownInLoop => s.apply i fun c => some (c.shutdownInLoop, [])
  | .forceCLoseInLoop => s.forceCLoseInLoop i around.calls
  | .connectDestroyed => s.connectDestroyed i around.calls

/-- newConnection up to its call of connectEstablished. -/
def register (s : State) (sockfd : Int) : State :=
  let connName := s.server.connName s.server.nextConnId
  let conn := { TcpConnection.create connName sockfd with
    writeCompleteCallback := s.server.writeCompleteCallback }
  { s with
    server := { s.server with
      nextConnId := wrapInt (s.server.nextConnId + 1)
      connections := s.server.connections.insert connName s.objects.length }
    objects := s.objects ++ [ConnectionObject.create conn] }

/-- The only loop is the server's own, so connectEstablished is called at once. -/
def newConnection (s : State) (sockfd : Int) (calls : List UserCall) : Option State :=
  (s.register sockfd).connectEstablished s.objects.length calls

end State

inductive Label
  | newConnection (sockfd : Int) (calls : List UserCall)
  | poll (active : List (Nat × Revents))
  | handleEvent (answers : State.Answers)
  | doPendingFunctors
  | runFunctor (around : State.Surroundings)
  | fireTimer (conn : Nat) (locked : Bool)
  | call (call : UserCall)

def Label.isNewConnection : Label → Bool
  | .newConnection _ _ => true
  | .poll _ | .handleEvent _ | .doPendingFunctors | .runFunctor _ | .fireTimer _ _ | .call _ =>
      false

/-- What is assumed of a report by poll: the channel's interest set is not empty, and
a hang-up without POLLIN comes with neither POLLPRI nor POLLRDHUP. -/
def reportable (s : State) (report : Nat × Revents) : Bool :=
  (s.objects[report.1]?.any fun o => !o.conn.channel.isNoneEvent) && report.2.cleanHangUp

/-- The loop polls between batches, and takes a batch when it has handled every
channel. A channel has one slot among those poll fills in. -/
def Enabled (s : State) : Label → Prop
  | .newConnection _ _ => True
  | .poll active => s.activeChannels = [] ∧ s.functors = [] ∧ (active.map Prod.fst).Nodup ∧
      ∀ report ∈ active, reportable s report = true
  | .handleEvent _ => s.activeChannels ≠ []
  | .doPendingFunctors => s.activeChannels = [] ∧ s.functors = []
  | .runFunctor _ => s.functors ≠ []
  | .fireTimer i _ => i ∈ s.timers
  | .call _ => True

def next (s : State) : Label → Option State
  | .newConnection sockfd calls => s.newConnection sockfd calls
  | .poll active => some { s with activeChannels := active }
  | .handleEvent answers =>
      match s.activeChannels with
      | [] => none
      | (i, revents) :: rest => { s with activeChannels := rest }.handleEvent i revents answers
  | .doPendingFunctors => some { s with functors := s.pendingFunctors, pendingFunctors := [] }
  | .runFunctor around =>
      match s.functors with
      | [] => none
      | (i, f) :: rest => { s with functors := rest }.runFunctor i around f
  | .fireTimer i locked =>
      -- the timer holds a weak pointer to the connection
      let fired := { s with timers := s.timers.erase i }
      if locked then fired.apply i fun c => some c.forceClose else some fired
  | .call call => s.userCall call

def machine : Machine State Label where
  enabled := Enabled
  step := next

/-- The server before its first connection. -/
def started (listenAddr : InetAddress) (name : Bytes) (writeCompleteCallback : Bool) :
    State where
  server := create listenAddr name writeCompleteCallback
  objects := []
  activeChannels := []
  pendingFunctors := []
  functors := []
  timers := []

instance (s : State) : (label : Label) → Decidable (machine.enabled s label)
  | .newConnection _ _ => inferInstanceAs (Decidable True)
  | .poll active => inferInstanceAs (Decidable (s.activeChannels = [] ∧ s.functors = [] ∧
      (active.map Prod.fst).Nodup ∧ ∀ report ∈ active, reportable s report = true))
  | .handleEvent _ => inferInstanceAs (Decidable (s.activeChannels ≠ []))
  | .doPendingFunctors => inferInstanceAs (Decidable (s.activeChannels = [] ∧ s.functors = []))
  | .runFunctor _ => inferInstanceAs (Decidable (s.functors ≠ []))
  | .fireTimer i _ => inferInstanceAs (Decidable (i ∈ s.timers))
  | .call _ => inferInstanceAs (Decidable True)

end TcpServer
end Tundra
