import Tundra.Base.LogRolling

set_option autoImplicit false

/- The mappings a LogFile goes through: what lies in each of them, and when the next one
is started. -/
namespace Tundra

open Library

/-- The bytes in front of curPos_ that the shared mapping has from its file. -/
def MmapManager.front (m : MmapManager) (disk : Disk) : Bytes :=
  ((disk m.fName).getD []).take m.curPos

namespace LogFile

def State.front (s : State) (disk : Disk) : List Bytes :=
  (s.log.curMMap.map fun m => m.front disk).toList

/-- A LogFile and, of each mapping it has given up, the bytes in front of curPos_ as munmap
finds them. -/
structure Mappings where
  file : State
  closed : List Bytes

def Label.messages : Label → List Bytes
  | .append call => [call.logMsgs]
  | .rollFile _ => []

namespace Mappings

/-- Of all mappings in their order, the bytes in front of curPos_. -/
def fronts (s : Mappings) : List Bytes := s.closed ++ s.file.front s.file.disk

section

variable (localtime : Nat → TimeStamp.Tm)

/-- The old mapping is still there when the new file has been opened. -/
def rollFile (s : Mappings) (now : Nat) : Mappings :=
  let filename := getLogFileName localtime s.file.log.basename now
  let nextMap := MmapManager.create s.file.disk filename s.file.log.rollSize.bytes
  ⟨s.file.rollFile localtime now, s.closed ++ s.file.front nextMap.2⟩

def put (s : Mappings) (logMsgs : Bytes) : Option Mappings :=
  (s.file.put logMsgs).map fun file => { s with file := file }

/-- What append does before it copies the message. -/
def makeRoom (s : Mappings) (call : Call) : Mappings :=
  if s.file.log.curBytes + call.logMsgs.length > s.file.log.rollSize.bytes then
    s.rollFile localtime call.now
  else s

def append (s : Mappings) (call : Call) : Option Mappings :=
  if call.logMsgs.length < s.file.log.rollSize.bytes then
    (s.makeRoom localtime call).put call.logMsgs
  else none

def machine : Machine Mappings Label where
  enabled s := Enabled s.file
  step s
    | .append call => s.append localtime call
    | .rollFile now => some (s.rollFile localtime now)

instance (s : Mappings) (label : Label) : Decidable ((machine localtime).enabled s label) :=
  inferInstanceAs (Decidable ((LogFile.machine localtime).enabled s.file label))

theorem put_file (s : Mappings) (logMsgs : Bytes) :
    (s.put logMsgs).map Mappings.file = s.file.put logMsgs := by
  rw [put, Option.map_map]
  exact congrFun Option.map_id _

/-- The LogFile does not notice that its mappings are kept in view. -/
theorem step_file (s : Mappings) (label : Label) :
    ((machine localtime).step s label).map Mappings.file =
      (LogFile.machine localtime).step s.file label := by
  cases label with
  | append call =>
      dsimp only [machine, LogFile.machine]
      unfold append makeRoom State.append
      split
      · rw [put_file]
        split
        · rfl
        · rfl
      · rfl
  | rollFile now => rfl

theorem run_file {s t : Mappings} {labels : List Label}
    (run : (machine localtime).Run s labels t) :
    (LogFile.machine localtime).Run s.file labels t.file := by
  induction run with
  | nil => exact .nil
  | @snoc labels u v label front allowed moved ih =>
      have stepped := step_file localtime u label
      rw [moved, Option.map_some] at stepped
      exact ih.snoc allowed stepped.symm

/-- The copy of the message gives up no mapping. -/
theorem append_closed (s : Mappings) (call : Call) (t : Mappings)
    (appended : s.append localtime call = some t) :
    t.closed = (s.makeRoom localtime call).closed := by
  unfold append at appended
  split at appended
  · obtain ⟨file, _, rfl⟩ := Option.map_eq_some_iff.mp appended
    rfl
  · cases appended

/-- Both counts of the bytes in the current mapping agree, and are within it. -/
structure Counted (rollSize : RollSize) (s : State) (m : MmapManager) : Prop where
  sized : s.log.rollSize = rollSize
  mapped : s.log.curMMap = some m
  whole : m.len = rollSize.bytes
  same : s.log.curBytes = m.curPos
  bounded : m.curPos ≤ m.len

variable {rollSize : RollSize} {s t : Mappings} {m : MmapManager}

theorem Counted.rollFile {s : State} (sized : s.log.rollSize = rollSize) (now : Nat) :
    Counted rollSize (s.rollFile localtime now)
      ⟨getLogFileName localtime s.log.basename now, s.log.rollSize.bytes, 0⟩ :=
  ⟨sized, rfl, congrArg RollSize.bytes sized, rfl, Nat.zero_le _⟩

theorem Counted.put {s t : State} (counted : Counted rollSize s m) (logMsgs : Bytes)
    (puts : s.put logMsgs = some t) :
    Counted rollSize t { m with curPos := m.curPos + logMsgs.length } := by
  obtain ⟨disk, _, fits, rfl⟩ := put_inv counted.mapped logMsgs t puts
  exact ⟨counted.sized, rfl, counted.whole, congrArg (· + logMsgs.length) counted.same, fits⟩

/-- Where the message is copied there is room for it, and a mapping is given up for it only
when it did not fit there. -/
theorem Counted.makeRoom (counted : Counted rollSize s.file m) (call : Call)
    (small : call.logMsgs.length < rollSize.bytes) :
    ∃ n, Counted rollSize (s.makeRoom localtime call).file n ∧
      n.curPos + call.logMsgs.length ≤ n.len ∧
      (s.makeRoom localtime call).closed.length =
        s.closed.length + (if m.curPos + call.logMsgs.length ≤ m.len then 0 else 1) := by
  unfold Mappings.makeRoom
  rw [counted.same, counted.sized, ← counted.whole]
  by_cases fits : m.curPos + call.logMsgs.length ≤ m.len
  · rw [if_neg (Nat.not_lt.mpr fits), if_pos fits]
    exact ⟨m, counted, fits, rfl⟩
  · rw [if_pos (Nat.lt_of_not_le fits), if_neg fits]
    refine ⟨_, Counted.rollFile localtime counted.sized call.now, ?_, ?_⟩
    · dsimp only
      rw [counted.sized, Nat.zero_add]
      exact small.le
    · unfold Mappings.rollFile State.front
      rw [counted.mapped, List.length_append]
      rfl

theorem counted_preserved :
    (LogFile.machine localtime).Preserves fun s => ∃ m, Counted rollSize s m := by
  intro s label t ⟨m, counted⟩ allowed moved
  cases label with
  | append call =>
      have puts : (if s.log.curBytes + call.logMsgs.length > s.log.rollSize.bytes then
          (s.rollFile localtime call.now).put call.logMsgs
        else s.put call.logMsgs) = some t := (if_pos allowed).symm.trans moved
      split at puts
      · exact ⟨_, (Counted.rollFile localtime counted.sized call.now).put call.logMsgs puts⟩
      · exact ⟨_, counted.put call.logMsgs puts⟩
  | rollFile now =>
      obtain rfl := Option.some.inj moved
      exact ⟨_, Counted.rollFile localtime counted.sized now⟩

/-- The mappings given up hold one group of messages each, and the current one holds the
last messages. -/
structure Grouped (s : Mappings) (m : MmapManager) (groups : List (List Bytes))
    (last : List Bytes) : Prop where
  holding : Holding s.file m last.flatten
  closed : s.closed = groups.map List.flatten

variable {groups : List (List Bytes)} {last : List Bytes}

theorem Grouped.counted (grouped : Grouped s m groups last) :
    Counted s.file.log.rollSize s.file m :=
  ⟨rfl, grouped.holding.mapped, grouped.holding.whole,
    grouped.holding.counted.trans grouped.holding.position.symm,
    grouped.holding.position.trans_le grouped.holding.bounded⟩

/-- The data of a mapping is in front of its curPos_, whatever happens to other files. -/
theorem Grouped.front (grouped : Grouped s m groups last) (disk : Disk)
    (same : disk m.fName = s.file.disk m.fName) : s.file.front disk = [last.flatten] := by
  unfold State.front MmapManager.front
  rw [grouped.holding.mapped, Option.map_some, same, grouped.holding.current, Option.getD_some,
    grouped.holding.position, List.take_left]
  rfl

theorem Grouped.fronts (grouped : Grouped s m groups last) :
    s.fronts = (groups ++ [last]).map List.flatten := by
  rw [Mappings.fronts, grouped.front s.file.disk rfl, grouped.closed, List.map_append]
  rfl

theorem Grouped.put (grouped : Grouped s m groups last) (logMsgs : Bytes)
    (fits : m.curPos + logMsgs.length ≤ m.len) :
    ∃ t n, s.put logMsgs = some t ∧ Grouped t n groups (last ++ [logMsgs]) := by
  rw [grouped.holding.position] at fits
  obtain ⟨file, puts, holding, _⟩ := grouped.holding.put logMsgs fits
  refine ⟨⟨file, s.closed⟩, { m with curPos := m.curPos + logMsgs.length }, ?_, ?_,
    grouped.closed⟩
  · rw [Mappings.put, puts]
    rfl
  · rw [List.flatten_append, List.flatten_singleton]
    exact holding

/-- The clock gives another file name than that of the current mapping. -/
def OtherName (s : Mappings) (now : Nat) : Prop :=
  s.file.log.curMMap.map MmapManager.fName ≠
    some (getLogFileName localtime s.file.log.basename now)

/-- A label that starts a mapping gets another file name for it. -/
def Renames (s : Mappings) : Label → Prop
  | .append call =>
      s.file.log.curBytes + call.logMsgs.length > s.file.log.rollSize.bytes →
        s.OtherName localtime call.now
  | .rollFile now => s.OtherName localtime now

theorem Grouped.rollFile (grouped : Grouped s m groups last) (now : Nat)
    (renamed : s.OtherName localtime now) :
    ∃ n, Grouped (s.rollFile localtime now) n (groups ++ [last]) [] := by
  have other : getLogFileName localtime s.file.log.basename now ≠ m.fName := by
    intro same
    apply renamed
    rw [grouped.holding.mapped, Option.map_some, same]
  refine ⟨_, (grouped.holding.roll localtime now other).1, ?_⟩
  have kept : (MmapManager.create s.file.disk (getLogFileName localtime s.file.log.basename now)
      s.file.log.rollSize.bytes).2 m.fName = s.file.disk m.fName := by
    rw [create_disk _ _ _ s.file.log.rollSize.positive, Function.update_of_ne other.symm]
  rw [Mappings.rollFile, grouped.front _ kept, grouped.closed, List.map_append]
  rfl

theorem Grouped.makeRoom (grouped : Grouped s m groups last) (call : Call)
    (renamed : s.Renames localtime (.append call)) :
    ∃ n before more, Grouped (s.makeRoom localtime call) n before more ∧
      before.flatten ++ more = groups.flatten ++ last := by
  unfold Mappings.makeRoom
  split
  · rename_i full
    obtain ⟨n, rolled⟩ := grouped.rollFile localtime call.now (renamed full)
    refine ⟨n, _, _, rolled, ?_⟩
    rw [List.flatten_append, List.flatten_singleton, List.append_nil]
  · exact ⟨m, groups, last, grouped, rfl⟩

/-- No label that is enabled and renames fails, and its message comes behind the others. -/
theorem Grouped.step (grouped : Grouped s m groups last) (label : Label)
    (allowed : (machine localtime).enabled s label) (renamed : s.Renames localtime label) :
    ∃ t n before more, (machine localtime).step s label = some t ∧ Grouped t n before more ∧
      before.flatten ++ more = groups.flatten ++ last ++ label.messages := by
  cases label with
  | append call =>
      obtain ⟨k, room, fits, _⟩ := grouped.counted.makeRoom localtime call allowed
      obtain ⟨n, before, more, roomy, messages⟩ := grouped.makeRoom localtime call renamed
      obtain rfl : k = n := Option.some.inj (room.mapped.symm.trans roomy.holding.mapped)
      obtain ⟨t, n, puts, next⟩ := roomy.put call.logMsgs fits
      refine ⟨t, n, before, more ++ [call.logMsgs], ?_, next, ?_⟩
      · exact (if_pos allowed).trans puts
      · rw [← List.append_assoc, messages]
        rfl
  | rollFile now =>
      obtain ⟨n, rolled⟩ := grouped.rollFile localtime now renamed
      refine ⟨_, n, _, _, rfl, rolled, ?_⟩
      rw [List.flatten_append, List.flatten_singleton]
      rfl

theorem Grouped.run {labels : List Label} (grouped : Grouped s m groups last)
    (run : ((machine localtime).restrict fun s label => s.Renames localtime label).Run s labels t) :
    ∃ n before more, Grouped t n before more ∧
      before.flatten ++ more = groups.flatten ++ last ++ labels.flatMap Label.messages := by
  induction run with
  | nil => exact ⟨m, groups, last, grouped, (List.append_nil _).symm⟩
  | snoc front allowed moved ih =>
      obtain ⟨n, before, more, reached, messages⟩ := ih
      obtain ⟨u, k, earlier, later, stepped, next, added⟩ :=
        reached.step localtime _ allowed.1 allowed.2
      obtain rfl := Option.some.inj (stepped.symm.trans moved)
      refine ⟨k, earlier, later, next, ?_⟩
      rw [added, messages, List.flatMap_append, List.flatMap_singleton, List.append_assoc]

/-- For every roll size, and in every state that appends of messages below it and rolls
reach: both counts are within the mapping, a message of this kind always passes
mmapManager's assertion, and it starts a mapping only when it does not fit into the current
one. As long as every new mapping gets another file than the one before it, no message is
split, none is lost, and no call fails. -/
theorem messages_unsplit (disk : Disk) (basename : Bytes) (rollSize : RollSize) (first : Nat)
    (s : State) (made : create localtime disk basename rollSize first = some s)
    (labels : List Label) (t : Mappings) (run : (machine localtime).Run ⟨s, []⟩ labels t) :
    (∃ m, Counted rollSize t.file m ∧ m.len < 2 ^ 31 ∧
      ∀ call : Call, call.logMsgs.length < rollSize.bytes →
        ∃ n, (t.makeRoom localtime call).file.log.curMMap = some n ∧
          n.curPos + call.logMsgs.length ≤ n.len ∧
          (t.makeRoom localtime call).closed.length =
            t.closed.length + (if m.curPos + call.logMsgs.length ≤ m.len then 0 else 1) ∧
          ∀ u, t.append localtime call = some u →
            u.closed = (t.makeRoom localtime call).closed) ∧
    ((machine localtime).Along (fun s label _ => s.Renames localtime label) ⟨s, []⟩ labels →
      (∃ groups : List (List Bytes), groups.flatten = labels.flatMap Label.messages ∧
        t.fronts = groups.map List.flatten) ∧
      t.fronts.flatten = (labels.flatMap Label.messages).flatten ∧
      ∀ label, (machine localtime).enabled t label → t.Renames localtime label →
        ∃ u, (machine localtime).step t label = some u) := by
  obtain ⟨intact, size, _⟩ := create_intact localtime disk basename rollSize first made
  have start : Grouped ⟨s, []⟩ ⟨getLogFileName localtime basename first, rollSize.bytes, 0⟩ []
      [] := ⟨intact.holding, rfl⟩
  have counted := start.counted
  dsimp only at counted
  rw [size] at counted
  constructor
  · obtain ⟨m, reached⟩ :=
      (run_file localtime run).invariant (counted_preserved localtime) ⟨_, counted⟩
    refine ⟨m, reached, ?_, ?_⟩
    · rw [reached.whole]
      exact rollSize.small
    · intro call small
      obtain ⟨n, room, fits, mappings⟩ := reached.makeRoom localtime call small
      exact ⟨n, room.mapped, fits, mappings, append_closed localtime t call⟩
  · intro along
    obtain ⟨m, groups, last, grouped, messages⟩ := start.run localtime (run.restrict along)
    have whole : (groups ++ [last]).flatten = labels.flatMap Label.messages := by
      rw [List.flatten_append, List.flatten_singleton]
      exact messages
    refine ⟨⟨groups ++ [last], whole, grouped.fronts⟩, ?_, ?_⟩
    · rw [grouped.fronts, ← whole, List.flatten_flatten]
    · intro label allowed renamed
      obtain ⟨u, _, _, _, stepped, _⟩ := grouped.step localtime label allowed renamed
      exact ⟨u, stepped⟩

instance (s : Mappings) (now : Nat) : Decidable (s.OtherName localtime now) :=
  inferInstanceAs (Decidable (_ ≠ _))

instance (s : Mappings) : (label : Label) → Decidable (s.Renames localtime label)
  | .append call => inferInstanceAs (Decidable (
      s.file.log.curBytes + call.logMsgs.length > s.file.log.rollSize.bytes →
        s.OtherName localtime call.now))
  | .rollFile now => inferInstanceAs (Decidable (s.OtherName localtime now))

end

/-- A roll by the caller and one by append, each a millisecond behind what was before. -/
def threeFiles : List Label :=
  [.append ⟨0, ascii "first\n"⟩, .rollFile 1000000, .append ⟨2000000, ascii "next\n"⟩,
    .append ⟨3000000, ascii "more\n"⟩]

theorem messages_unsplit_later :
    ∃ t, (machine TimeStamp.gmtime).Run ⟨opened, []⟩ threeFiles t ∧
      t.fronts = [ascii "first\n", ascii "next\n", ascii "more\n"] ∧
      t.fronts.flatten = ascii "first\nnext\nmore\n" := by
  obtain ⟨t, run, fronts⟩ := (machine TimeStamp.gmtime).exists_run_of_play ⟨opened, []⟩
    threeFiles fronts [ascii "first\n", ascii "next\n", ascii "more\n"] (by decide +kernel)
  have kept := (messages_unsplit TimeStamp.gmtime _ _ _ 0 opened opened_made threeFiles t run).2
    (by decide +kernel)
  exact ⟨t, run, fronts, kept.2.1⟩

/-- Rolls within the millisecond of the constructor. The first finds its mapping cleared,
since it is one of the same file; behind the second, the file of the new mapping has been
cut to nothing and a message that would fit raises SIGBUS. -/
theorem messages_cleared :
    create TimeStamp.gmtime (fun _ => none) (ascii "log") eightBytes 0 = some opened ∧
    (∃ t, (machine TimeStamp.gmtime).Run ⟨opened, []⟩
        [.append ⟨0, ascii "first\n"⟩, .rollFile 999999] t ∧
      t.fronts = [List.replicate 6 0, []] ∧ t.fronts.flatten ≠ ascii "first\n") ∧
    ∃ t, (machine TimeStamp.gmtime).Run ⟨opened, []⟩ [.rollFile 999999] t ∧
      (machine TimeStamp.gmtime).enabled t (.append ⟨999999, ascii "next\n"⟩) ∧
      (machine TimeStamp.gmtime).step t (.append ⟨999999, ascii "next\n"⟩) = none := by
  refine ⟨opened_made, ?_, ?_⟩
  · obtain ⟨t, run, fronts⟩ := (machine TimeStamp.gmtime).exists_run_of_play ⟨opened, []⟩
      [.append ⟨0, ascii "first\n"⟩, .rollFile 999999] fronts [List.replicate 6 0, []]
      (by decide +kernel)
    refine ⟨t, run, fronts, ?_⟩
    rw [fronts]
    decide
  · have run : (machine TimeStamp.gmtime).Run ⟨opened, []⟩ [.rollFile 999999]
        (rollFile TimeStamp.gmtime ⟨opened, []⟩ 999999) := .single trivial rfl
    refine ⟨_, run, by decide +kernel, ?_⟩
    have nothing : ((machine TimeStamp.gmtime).step
        (rollFile TimeStamp.gmtime ⟨opened, []⟩ 999999)
        (.append ⟨999999, ascii "next\n"⟩)).isNone = true := by decide +kernel
    exact Option.isNone_iff_eq_none.mp nothing

end Mappings
end LogFile
end Tundra
