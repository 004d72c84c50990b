import Mathlib.Data.Int.Order.Basic
import Mathlib.Logic.Function.Basic
import Tundra.Library.Machine
import Tundra.Library.OrderedMap
import Tundra.Library.SlotTable
import Tundra.Net.Channel

set_option autoImplicit false

/- net/Poller: the pollfds handed to poll, the channel of each descriptor, and the
index each channel keeps of its pollfd. An operation whose assertion fails returns
`none`. The numbers of descriptors stay in the range of int. -/
namespace Tundra

open Library

/-- A Channel together with what the Poller keeps in it. -/
structure PollChannel extends Channel where
  index : Int
  revents : Int
deriving DecidableEq

def PollChannel.create (fd : Int) : PollChannel := ⟨Channel.create fd, -1, 0⟩

/-- struct pollfd. A negative descriptor makes poll ignore the entry. -/
structure Pollfd where
  fd : Int
  events : Events
  revents : Int
deriving DecidableEq

/-- The tables of a Poller, and the channels that they point to. -/
structure Poller (κ : Type*) where
  pollfds : List Pollfd
  channels : OrderedMap Int κ
  channel : κ → PollChannel

/-- The calls on a Channel that reach the Poller. -/
inductive ChannelOp
  | enableReading
  | disableReading
  | enableWriting
  | disableWriting
  | disableAll
  | remove
deriving DecidableEq

namespace Poller

variable {κ : Type*} [DecidableEq κ]

def create (channel : κ → PollChannel) : Poller κ := ⟨[], OrderedMap.empty, channel⟩

/-- The descriptor a channel is left under when poll is to ignore it. -/
def ignored (fd : Int) : Int := -fd - 1

def setChannel (p : Poller κ) (c : κ) (channel : PollChannel) : Poller κ :=
  { p with channel := Function.update p.channel c channel }

def hasChannel (p : Poller κ) (c : κ) : Bool := p.channels.find (p.channel c).fd = some c

def updateChannel (p : Poller κ) (c : κ) : Option (Poller κ) :=
  let channel := p.channel c
  if channel.index < 0 then
    if p.channels.find channel.fd = none then
      -- a new pollfd gets the plain descriptor, also when there are no events
      some { p with
        pollfds := p.pollfds ++ [⟨channel.fd, channel.events, 0⟩]
        channels := p.channels.insert channel.fd c
        channel := Function.update p.channel c { channel with index := p.pollfds.length } }
    else none
  else if p.channels.find channel.fd = some c then
    (p.pollfds[channel.index.toNat]?).bind fun pfd =>
      if pfd.fd = channel.fd ∨ pfd.fd = ignored channel.fd then
        some { p with
          pollfds := p.pollfds.set channel.index.toNat
            ⟨if channel.isNoneEvent then ignored channel.fd else channel.fd, channel.events, 0⟩ }
      else none
  else none

/-- The last pollfd is swapped into the place of the one removed. -/
def removeChannel (p : Poller κ) (c : κ) : Option (Poller κ) :=
  let channel := p.channel c
  if p.channels.find channel.fd = some c ∧ channel.isNoneEvent = true ∧ 0 ≤ channel.index then
    (p.pollfds[channel.index.toNat]?).bind fun pfd =>
      if pfd.fd = ignored channel.fd ∧ pfd.events = channel.events then
        let channels := p.channels.erase channel.fd
        if channel.index + 1 = p.pollfds.length then
          some { p with pollfds := p.pollfds.dropLast, channels := channels }
        else
          (p.pollfds.getLast?).bind fun back =>
            let channelAtEnd := if back.fd < 0 then -back.fd - 1 else back.fd
            (channels.find channelAtEnd).map fun moved =>
              { p with
                pollfds := (p.pollfds.set channel.index.toNat back).dropLast
                channels := channels
                channel := Function.update p.channel moved
                  { p.channel moved with index := channel.index } }
      else none
  else none

/-- A change of the interest set, followed by Channel::update. -/
def update (p : Poller κ) (c : κ) (changed : Channel) : Option (Poller κ) :=
  (p.setChannel c { p.channel c with toChannel := changed }).updateChannel c

def remove (p : Poller κ) (c : κ) : Option (Poller κ) :=
  ((p.channel c).toChannel.remove).bind fun channel =>
    (p.setChannel c { p.channel c with toChannel := channel }).removeChannel c

def apply (p : Poller κ) (c : κ) : ChannelOp → Option (Poller κ)
  | .enableReading => p.update c (p.channel c).toChannel.enableReading
  | .disableReading => p.update c (p.channel c).toChannel.disableReading
  | .enableWriting => p.update c (p.channel c).toChannel.enableWriting
  | .disableWriting => p.update c (p.channel c).toChannel.disableWriting
  | .disableAll => p.update c (p.channel c).toChannel.disableAll
  | .remove => p.remove c

/-- The loop of fillActiveChannels over the pollfds that are left. -/
def fillFrom (p : Poller κ) : List Pollfd → Int → List κ → Option (Poller κ × List κ)
  | [], _, activeChannels => some (p, activeChannels)
  | pfd :: rest, numEvents, activeChannels =>
      if 0 < numEvents then
        if 0 < pfd.revents then
          (p.channels.find pfd.fd).bind fun ch =>
            if (p.channel ch).fd = pfd.fd then
              fillFrom (p.setChannel ch { p.channel ch with revents := pfd.revents }) rest
                (numEvents - 1) (activeChannels ++ [ch])
            else none
        else fillFrom p rest numEvents activeChannels
      else some (p, activeChannels)

def fillActiveChannels (p : Poller κ) (numEvents : Int) (activeChannels : List κ) :
    Option (Poller κ × List κ) :=
  p.fillFrom p.pollfds numEvents activeChannels

/-- The kernel writes the revents of every pollfd. -/
def answered (p : Poller κ) (revents : List Int) : Poller κ :=
  { p with pollfds := p.pollfds.zipWith (fun pfd r => { pfd with revents := r }) revents }

/-- Poller::poll with the kernel's answer; `none` is a failing call, which writes nothing. -/
def poll (p : Poller κ) (answer : Option (Int × List Int)) (activeChannels : List κ) :
    Option (Poller κ × List κ) :=
  match answer with
  | some (numEvents, revents) =>
      if 0 < numEvents then (p.answered revents).fillActiveChannels numEvents activeChannels
      else some (p.answered revents, activeChannels)
  | none => some (p, activeChannels)

/-- Any operations on any channels, as long as no assertion fails. -/
def machine : Machine (Poller κ) (κ × ChannelOp) where
  enabled _ _ := True
  step p label := p.apply label.1 label.2

end Poller
end Tundra
