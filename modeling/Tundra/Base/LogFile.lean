import Mathlib.Algebra.Group.Nat.Defs
import Mathlib.Data.List.Nodup
import Tundra.Library.FileSystem
import Tundra.Library.Machine
import Tundra.Util.TimeStamp

set_option autoImplicit false

/- base/LogFile over util/mmapManager: log messages are copied into a mapped file, and
a message that does not fit starts the next file. -/
namespace Tundra

open Library

abbrev Disk := FileSystem Bytes

structure MmapManager where
  fName : Bytes
  len : Nat
  curPos : Nat
deriving DecidableEq

namespace MmapManager

def pageSize : Nat := 4096

/-- The constructor with a file name: the file is made `len` bytes long before it is
mapped. -/
def create (disk : Disk) (filename : Bytes) (len : Nat) : MmapManager × Disk :=
  (⟨filename, len, 0⟩, (disk.openTrunc filename).writeAt filename (len - 1) [0])

/-- The destructor cuts the file to what has been appended. -/
def destroy (m : MmapManager) (disk : Disk) : Disk := disk.truncate m.fName m.curPos

def append (m : MmapManager) (disk : Disk) (buf : Bytes) : Option (MmapManager × Disk) :=
  if m.curPos + buf.length ≤ m.len then
    (disk.store pageSize m.fName m.curPos buf).map fun stored =>
      ({ m with curPos := m.curPos + buf.length }, stored)
  else none

end MmapManager

/-- A roll size that is an int as well as an off_t. -/
structure RollSize where
  bytes : Nat
  positive : 0 < bytes
  small : bytes < 2 ^ 31
deriving DecidableEq

structure LogFile where
  basename : Bytes
  rollSize : RollSize
  curBytes : Nat
  curMMap : Option MmapManager
deriving DecidableEq

namespace LogFile

/-- strftime with the format "-%Y%m%d-%H%M%S-". -/
def strftime (tm : TimeStamp.Tm) : Bytes :=
  ascii "-" ++ TimeStamp.padded 4 48 tm.year ++ TimeStamp.padded 2 48 tm.month ++
    TimeStamp.padded 2 48 tm.day ++ ascii "-" ++ TimeStamp.padded 2 48 tm.hour ++
    TimeStamp.padded 2 48 tm.minute ++ TimeStamp.padded 2 48 tm.second ++ ascii "-"

/-- `now` is in nanoseconds, and `localtime` depends on the time zone. -/
def getLogFileName (localtime : Nat → TimeStamp.Tm) (basename : Bytes) (now : Nat) : Bytes :=
  let timestamp := now / 10 ^ 6
  basename ++ strftime (localtime (now / 10 ^ 9)) ++ snprintf 4 (decimal (timestamp % 1000)) ++
    ascii ".log"

/-- A LogFile and the disk. `files` are the files it has made, in the order of their
creation. -/
structure State where
  disk : Disk
  log : LogFile
  files : List Bytes

/-- A call of append, with what the clock reads if it rolls. -/
structure Call where
  now : Nat
  logMsgs : Bytes
deriving DecidableEq

inductive Label
  | append (call : Call)
  | rollFile (now : Nat)
deriving DecidableEq

section

variable (localtime : Nat → TimeStamp.Tm)

/-- The new file is opened before the old mmapManager is destroyed. -/
def State.rollFile (s : State) (now : Nat) : State :=
  let filename := getLogFileName localtime s.log.basename now
  let nextMap := MmapManager.create s.disk filename s.log.rollSize.bytes
  { disk := s.log.curMMap.elim nextMap.2 fun old => old.destroy nextMap.2
    log := { s.log with curMMap := some nextMap.1, curBytes := 0 }
    files := if filename ∈ s.files then s.files else s.files ++ [filename] }

/-- The copy into the current mapping. -/
def State.put (s : State) (logMsgs : Bytes) : Option State :=
  s.log.curMMap.bind fun m =>
    (m.append s.disk logMsgs).map fun stored =>
      { s with
        disk := stored.2
        log := { s.log with
          curMMap := some stored.1, curBytes := s.log.curBytes + logMsgs.length } }

def State.append (s : State) (call : Call) : Option State :=
  if call.logMsgs.length < s.log.rollSize.bytes then
    if s.log.curBytes + call.logMsgs.length > s.log.rollSize.bytes then
      (s.rollFile localtime call.now).put call.logMsgs
    else s.put call.logMsgs
  else none

/-- The constructor, whose assertion refuses a directory in the name. -/
def create (disk : Disk) (basename : Bytes) (rollSize : RollSize) (now : Nat) : Option State :=
  if 47 ∈ basename then none
  else some (State.rollFile localtime ⟨disk, ⟨basename, rollSize, 0, none⟩, []⟩ now)

def State.destroy (s : State) : State :=
  { s with
    disk := s.log.curMMap.elim s.disk fun m => m.destroy s.disk
    log := { s.log with curMMap := none } }

/-- What is found in the files, in the order of their creation. -/
def State.onDisk (s : State) : Bytes := s.disk.contents s.files

/-- The caller passes less than a whole file. -/
def Enabled (s : State) : Label → Prop
  | .append call => call.logMsgs.length < s.log.rollSize.bytes
  | .rollFile _ => True

def machine : Machine State Label where
  enabled := Enabled
  step s
    | .append call => s.append localtime call
    | .rollFile now => some (s.rollFile localtime now)

instance (s : State) : (label : Label) → Decidable ((machine localtime).enabled s label)
  | .append call => inferInstanceAs (Decidable (call.logMsgs.length < s.log.rollSize.bytes))
  | .rollFile _ => inferInstanceAs (Decidable True)

end

/-- The readings of the clock that the calls use: one for each message that does not
fit behind the bytes before it. -/
def rollTimes (rollSize : Nat) : Nat → List Call → List Nat
  | _, [] => []
  | curBytes, call :: rest =>
      if curBytes + call.logMsgs.length > rollSize then
        call.now :: rollTimes rollSize call.logMsgs.length rest
      else rollTimes rollSize (curBytes + call.logMsgs.length) rest

end LogFile
end Tundra
