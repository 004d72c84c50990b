import Mathlib.Data.Finset.Card
import Mathlib.Data.Int.Order.Basic
import Mathlib.Data.Prod.Lex
import Mathlib.Logic.Function.Basic
import Mathlib.Algebra.Group.Nat.Defs
import Tundra.Library.Machine
import Tundra.Library.OrderedMap
import Tundra.Util.TimeStamp

set_option autoImplicit false

/- net/TimerQueue and net/Timer, with the heap that the Timers live in. Addresses are used
again after a delete, so a pointer is written with the sequence number of the object that
it was made for, and following it fails once that object has been deleted. An assertion
that fails gives `none` as well.

The callbacks that handleRead runs may add and cancel timers, so handleRead is cut into
steps: what its callbacks do comes between them. -/
namespace Tundra

open Library

/-- interval_ in microseconds, as addTime adds it. -/
structure Timer where
  expiration : TimeStamp
  interval : Int
  repeat_ : Bool
  sequence : Nat
deriving DecidableEq

/-- A Timer* with the sequence number of its object. As pair of both it is an ActiveTimer,
and what a TimerId holds. -/
abbrev ActiveTimer := Nat × Nat

/-- An Entry of timers_: the expiration it was inserted with and the pointer. -/
structure Entry where
  expiration : TimeStamp
  timer : ActiveTimer
deriving DecidableEq

/-- The timerfd: not armed, armed for a time, or expired and not read since. -/
inductive Timerfd
  | unarmed
  | armed (expiration : TimeStamp)
  | expired (expiration : TimeStamp)
deriving DecidableEq

/-- What the loop's thread is doing: outside handleRead, running the callbacks of the
expired timers from `remaining` on, or in reset, which has still to settle `remaining`. -/
inductive Phase
  | idle
  | calling (remaining expired : List Entry) (now : TimeStamp)
  | resetting (remaining : List Entry) (now : TimeStamp)
deriving DecidableEq

/-- `created` are the addresses of all Timers so far, so its length is s_numCreated_, and
`waiting` the calls of addTimerInLoop that have been queued and not been run. `deleted` and
`ran` note the sequence numbers of the Timers deleted and of those run, with the time. -/
structure TimerQueue where
  heap : Nat → Option Timer
  created : List Nat
  waiting : List ActiveTimer
  timers : OrderedMap (TimeStamp ×ₗ Nat) Nat
  activeTimers : Finset ActiveTimer
  callingExpiredTimers : Bool
  cancelingTimers : Finset ActiveTimer
  timerfd : Timerfd
  phase : Phase
  deleted : List Nat
  ran : List (Nat × TimeStamp)

def UINTPTR_MAX : Nat := 2 ^ 64 - 1

/-- addTimerInLoop and cancelInLoop are called by the loop outside handleRead and by the
callbacks that handleRead runs, from the first one on. -/
def Phase.callable : Phase → Bool
  | .idle => true
  | .calling remaining expired _ => remaining.length < expired.length
  | .resetting _ _ => false

namespace Timer

def restart (t : Timer) (now : TimeStamp) : Timer :=
  if t.repeat_ then { t with expiration := now + t.interval } else { t with expiration := 0 }

end Timer

namespace Timerfd

/-- read, which consumes an alarm that has expired and fails otherwise. -/
def read : Timerfd → Timerfd
  | .expired _ => .unarmed
  | alarm => alarm

/-- The time the descriptor was last armed for, as long as the alarm is to come or has not
been read. -/
def pending : Timerfd → Option TimeStamp
  | .unarmed => none
  | .armed expiration | .expired expiration => some expiration

end Timerfd

namespace TimerQueue

def create : TimerQueue where
  heap _ := none
  created := []
  waiting := []
  timers := OrderedMap.empty
  activeTimers := ∅
  callingExpiredTimers := false
  cancelingTimers := ∅
  timerfd := .unarmed
  phase := .idle
  deleted := []
  ran := []

def numCreated (s : TimerQueue) : Nat := s.created.length

def key (expiration : TimeStamp) (timer : ActiveTimer) : TimeStamp ×ₗ Nat :=
  toLex (expiration, timer.1)

/-- The object a pointer was made for, if it is alive. -/
def deref (s : TimerQueue) (timer : ActiveTimer) : Option Timer :=
  (s.heap timer.1).filter fun t => t.sequence = timer.2

/-- The constructor of Timer, at an address that is free. -/
def newTimer (s : TimerQueue) (address : Nat) (when_ : TimeStamp) (interval : Int)
    (repeats : Bool) : TimerQueue :=
  { s with
    heap := Function.update s.heap address (some ⟨when_, interval, repeats, s.numCreated + 1⟩)
    created := s.created ++ [address]
    waiting := s.waiting ++ [(address, s.numCreated + 1)] }

def delete (s : TimerQueue) (timer : ActiveTimer) : Option TimerQueue :=
  (s.deref timer).map fun _ =>
    { s with
      heap := Function.update s.heap timer.1 none
      deleted := s.deleted ++ [timer.2] }

def resetTimerfd (s : TimerQueue) (expiration : TimeStamp) : TimerQueue :=
  { s with timerfd := .armed expiration }

/-- The assertion that opens and closes the functions below. -/
def sizesAgree (s : TimerQueue) : Bool := s.timers.size = s.activeTimers.card

def insert (s : TimerQueue) (timer : ActiveTimer) : Option (TimerQueue × Bool) :=
  if s.sizesAgree then
    (s.deref timer).bind fun t =>
      let earliestChanged : Bool :=
        match s.timers.first with
        | none => true
        | some first => t.expiration < (ofLex first.1).1
      if s.timers.find (key t.expiration timer) = none ∧ timer ∉ s.activeTimers then
        let s := { s with
          timers := s.timers.insert (key t.expiration timer) timer.2
          activeTimers := Insert.insert timer s.activeTimers }
        if s.sizesAgree then some (s, earliestChanged) else none
      else none
  else none

def addTimerInLoop (s : TimerQueue) (timer : ActiveTimer) : Option TimerQueue :=
  (insert { s with waiting := s.waiting.erase timer } timer).bind fun r =>
    if r.2 then
      (r.1.deref timer).map fun t => r.1.resetTimerfd t.expiration
    else some r.1

def cancelInLoop (s : TimerQueue) (timer : ActiveTimer) : Option TimerQueue :=
  if s.sizesAgree then
    (if timer ∈ s.activeTimers then
      (s.deref timer).bind fun t =>
        if s.timers.count (key t.expiration timer) = 1 then
          (delete { s with timers := s.timers.erase (key t.expiration timer) } timer).map fun r =>
            { r with activeTimers := r.activeTimers.erase timer }
        else none
    else if s.callingExpiredTimers then
      some { s with cancelingTimers := Insert.insert timer s.cancelingTimers }
    else some s).bind fun r => if r.sizesAgree then some r else none
  else none

/-- The loop of getExpired over the entries it has taken out of timers_. -/
def eraseActive (s : TimerQueue) : List Entry → Option TimerQueue
  | [] => some s
  | entry :: rest =>
      (s.deref entry.timer).bind fun _ =>
        if entry.timer ∈ s.activeTimers then
          eraseActive { s with activeTimers := s.activeTimers.erase entry.timer } rest
        else none

def getExpired (s : TimerQueue) (now : TimeStamp) : Option (TimerQueue × List Entry) :=
  if s.sizesAgree then
    let sentry : TimeStamp ×ₗ Nat := toLex (now, UINTPTR_MAX)
    let rest := s.timers.dropBelow sentry
    if ∀ first ∈ rest.first, now < (ofLex first.1).1 then
      let expired := (s.timers.below sentry).map fun e =>
        (⟨(ofLex e.1).1, (ofLex e.1).2, e.2⟩ : Entry)
      (eraseActive { s with timers := rest } expired).bind fun r =>
        if r.sizesAgree then some (r, expired) else none
    else none
  else none

/-- handleRead up to its first callback. -/
def handleRead (s : TimerQueue) (now : TimeStamp) : Option TimerQueue :=
  (getExpired { s with timerfd := s.timerfd.read } now).map fun r =>
    { r.1 with
      callingExpiredTimers := true
      cancelingTimers := ∅
      phase := .calling r.2 r.2 now }

/-- The callback of the next expired timer is started. -/
def runNext (s : TimerQueue) : Option TimerQueue :=
  match s.phase with
  | .calling (entry :: rest) expired now =>
      (s.deref entry.timer).map fun t =>
        { s with phase := .calling rest expired now, ran := s.ran ++ [(t.sequence, now)] }
  | _ => none

/-- The last callback has returned. -/
def endCalling (s : TimerQueue) : Option TimerQueue :=
  match s.phase with
  | .calling [] expired now =>
      some { s with callingExpiredTimers := false, phase := .resetting expired now }
  | _ => none

/-- One pass through the loop of reset. -/
def resetNext (s : TimerQueue) : Option TimerQueue :=
  match s.phase with
  | .resetting (entry :: rest) now =>
      let s := { s with phase := .resetting rest now }
      (s.deref entry.timer).bind fun t =>
        if t.repeat_ ∧ entry.timer ∉ s.cancelingTimers then
          (insert { s with
            heap := Function.update s.heap entry.timer.1 (some (t.restart now)) }
              entry.timer).map Prod.fst
        else s.delete entry.timer
  | _ => none

/-- The end of reset: the timerfd is armed for the earliest timer if its time is valid. -/
def rearm (s : TimerQueue) : Option TimerQueue :=
  match s.phase with
  | .resetting [] _ =>
      let s := { s with phase := .idle }
      match s.timers.first with
      | none => some s
      | some first =>
          (s.deref ((ofLex first.1).2, first.2)).map fun t =>
            if 0 < t.expiration then s.resetTimerfd t.expiration else s
  | _ => none

inductive Label
  | newTimer (address : Nat) (when_ : TimeStamp) (interval : Int) (repeats : Bool)
  | addTimerInLoop (timer : ActiveTimer)
  | cancelInLoop (timer : ActiveTimer)
  | handleRead (now : TimeStamp)
  | runNext
  | endCalling
  | resetNext
  | rearm
  | alarm
deriving DecidableEq

/-- A Timer is made by any thread at any time, at an address that no live Timer has and that
is not the one of the sentry; a repeating one has a positive interval, in microseconds
perhaps 0. addTimerInLoop comes once for each of them, cancelInLoop with any TimerId. -/
def Enabled (s : TimerQueue) : Label → Prop
  | .newTimer address _ interval repeats =>
      s.heap address = none ∧ address < UINTPTR_MAX ∧ (repeats = true → 0 ≤ interval)
  | .addTimerInLoop timer => timer ∈ s.waiting ∧ s.phase.callable = true
  | .cancelInLoop _ => s.phase.callable = true
  | .handleRead _ => s.phase = .idle
  | .runNext => ∃ entry rest expired now, s.phase = .calling (entry :: rest) expired now
  | .endCalling => ∃ expired now, s.phase = .calling [] expired now
  | .resetNext => ∃ entry rest now, s.phase = .resetting (entry :: rest) now
  | .rearm => ∃ now, s.phase = .resetting [] now
  | .alarm => ∃ expiration, s.timerfd = .armed expiration

instance decidableEnabled (s : TimerQueue) : (label : Label) → Decidable (s.Enabled label)
  | .newTimer address _ interval repeats =>
      inferInstanceAs (Decidable (s.heap address = none ∧ address < UINTPTR_MAX ∧
        (repeats = true → 0 ≤ interval)))
  | .addTimerInLoop timer =>
      inferInstanceAs (Decidable (timer ∈ s.waiting ∧ s.phase.callable = true))
  | .cancelInLoop _ => inferInstanceAs (Decidable (s.phase.callable = true))
  | .handleRead _ => inferInstanceAs (Decidable (s.phase = .idle))
  | .runNext =>
      match phase : s.phase with
      | .calling (_ :: _) _ _ => isTrue ⟨_, _, _, _, phase⟩
      | .calling [] _ _ | .idle | .resetting _ _ =>
          isFalse (by rintro ⟨_, _, _, _, here⟩; rw [phase] at here; cases here)
  | .endCalling =>
      match phase : s.phase with
      | .calling [] _ _ => isTrue ⟨_, _, phase⟩
      | .calling (_ :: _) _ _ | .idle | .resetting _ _ =>
          isFalse (by rintro ⟨_, _, here⟩; rw [phase] at here; cases here)
  | .resetNext =>
      match phase : s.phase with
      | .resetting (_ :: _) _ => isTrue ⟨_, _, _, phase⟩
      | .resetting [] _ | .idle | .calling _ _ _ =>
          isFalse (by rintro ⟨_, _, _, here⟩; rw [phase] at here; cases here)
  | .rearm =>
      match phase : s.phase with
      | .resetting [] _ => isTrue ⟨_, phase⟩
      | .resetting (_ :: _) _ | .idle | .calling _ _ _ =>
          isFalse (by rintro ⟨_, here⟩; rw [phase] at here; cases here)
  | .alarm =>
      match timerfd : s.timerfd with
      | .armed _ => isTrue ⟨_, timerfd⟩
      | .unarmed | .expired _ =>
          isFalse (by rintro ⟨_, here⟩; rw [timerfd] at here; cases here)

def next (s : TimerQueue) : Label → Option TimerQueue
  | .newTimer address when_ interval repeats => some (s.newTimer address when_ interval repeats)
  | .addTimerInLoop timer => s.addTimerInLoop timer
  | .cancelInLoop timer => s.cancelInLoop timer
  | .handleRead now => s.handleRead now
  | .runNext => s.runNext
  | .endCalling => s.endCalling
  | .resetNext => s.resetNext
  | .rearm => s.rearm
  | .alarm =>
      match s.timerfd with
      | .armed expiration => some { s with timerfd := .expired expiration }
      | _ => none

def machine : Machine TimerQueue Label := ⟨Enabled, next⟩

instance decidableAllowed (s : TimerQueue) (label : Label) :
    Decidable (machine.enabled s label) :=
  inferInstanceAs (Decidable (s.Enabled label))

end TimerQueue
end Tundra
