import Mathlib.Data.List.Basic

set_option autoImplicit false

/- net/Channel: the interest set of one descriptor and the dispatch of the events
poll reported for it. -/
namespace Tundra

/-- events_ is only ever changed by whole groups of bits: kReadEvent, which is
POLLIN together with POLLPRI, and kWriteEvent, which is POLLOUT. -/
structure Events where
  read : Bool
  write : Bool
deriving DecidableEq, Repr

namespace Events

def kNoneEvent : Events := ⟨false, false⟩

end Events

structure Channel where
  fd : Int
  events : Events
  addedToLoop : Bool
deriving DecidableEq

namespace Channel

def create (fd : Int) : Channel := ⟨fd, Events.kNoneEvent, false⟩

def isNoneEvent (c : Channel) : Bool := c.events == Events.kNoneEvent
def isReading (c : Channel) : Bool := c.events.read
def isWriting (c : Channel) : Bool := c.events.write

/-- Channel::update, which hands the new interest set to the loop. -/
def update (c : Channel) (events : Events) : Channel :=
  { c with events := events, addedToLoop := true }

def enableReading (c : Channel) : Channel := c.update { c.events with read := true }
def disableReading (c : Channel) : Channel := c.update { c.events with read := false }
def enableWriting (c : Channel) : Channel := c.update { c.events with write := true }
def disableWriting (c : Channel) : Channel := c.update { c.events with write := false }
def disableAll (c : Channel) : Channel := c.update Events.kNoneEvent

def remove (c : Channel) : Option Channel :=
  if c.isNoneEvent then some { c with addedToLoop := false } else none

@[simp] theorem disableWriting_events (c : Channel) :
    c.disableWriting.events = { c.events with write := false } := rfl

theorem isNoneEvent_iff (c : Channel) : c.isNoneEvent = true ↔ c.events = Events.kNoneEvent := by
  simp only [isNoneEvent, beq_iff_eq]

end Channel

/-- revents_, one flag for each bit the dispatch tests. -/
structure Revents where
  pollin : Bool
  pollpri : Bool
  pollout : Bool
  pollerr : Bool
  pollhup : Bool
  pollnval : Bool
  pollrdhup : Bool
deriving DecidableEq, Repr

/-- A hang-up without POLLIN is reported with no other kind of input. -/
def Revents.cleanHangUp (r : Revents) : Bool :=
  !(r.pollhup && !r.pollin) || !(r.pollpri || r.pollrdhup)

inductive Callback
  | close
  | error
  | read
  | write
deriving DecidableEq, Repr

/-- The callbacks Channel::handleEventWithGuard calls, in its order. revents_ is
not assigned while they run, so the tests can be made beforehand. -/
def Revents.handleEventWithGuard (r : Revents) : List Callback :=
  (if r.pollhup && !r.pollin then [.close] else []) ++
  (if r.pollerr || r.pollnval then [.error] else []) ++
  (if r.pollin || r.pollpri || r.pollrdhup then [.read] else []) ++
  (if r.pollout then [.write] else [])

end Tundra
