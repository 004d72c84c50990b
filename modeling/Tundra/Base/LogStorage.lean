import Mathlib.Data.List.Basic
import Tundra.Base.LogAppend
import Tundra.Base.LogPipeline
import Tundra.Base.LogRolling

set_option autoImplicit false

/- The AsyncLogger with the LogFile of its background thread: how the accepted lines get
to the disk, also when some of them are dropped on the way. -/
namespace Tundra.LogStorage

open Library AsyncLogger LogPipeline

/-- What the step passes to LogFile::append. -/
def passed (s : LogPipeline.State) : LogPipeline.Label → Option Bytes
  | .write => s.toWrite.head?.map FixedBuffer.data
  | .overload now stack =>
      if maxBufferCounts - 1 < s.toWrite.length then
        some (notice now (s.toWrite.length + 1) stack)
      else none
  | .append _ _ _ _ | .stop | .loopTest | .lock | .wake | .giveBack => none

/-- run() leaves its loop. -/
def leaves (s : LogPipeline.State) : LogPipeline.Label → Bool
  | .loopTest => s.stop
  | .append _ _ _ _ | .stop | .lock | .wake | .overload _ _ | .write | .giveBack => false

/-- A step of the logger, with what the clock reads if the file rolls. -/
structure Label where
  act : LogPipeline.Label
  clock : Nat

structure State where
  pipeline : LogPipeline.State
  file : LogFile.State

/-- The LogFile of run() has just been made. -/
def started (file : LogFile.State) : State := ⟨LogPipeline.started, file⟩

section

variable (localtime : Nat → TimeStamp.Tm)

/-- What becomes of the LogFile, which run() destroys when it returns. -/
def store (s : State) (label : Label) : Option LogFile.State :=
  match passed s.pipeline label.act with
  | some logMsgs => s.file.append localtime ⟨label.clock, logMsgs⟩
  | none => some (if leaves s.pipeline label.act then s.file.destroy else s.file)

def next (s : State) (label : Label) : Option State :=
  (LogPipeline.next s.pipeline label.act).bind fun pipeline =>
    (store localtime s label).map fun file => ⟨pipeline, file⟩

def machine : Machine State Label where
  enabled s label := Enabled s.pipeline label.act
  step := next localtime

/-- The file rolls: the message is below the roll size, and does not fit. -/
def Rolls (s : State) (label : Label) : Prop :=
  ∃ logMsgs, passed s.pipeline label.act = some logMsgs ∧
    logMsgs.length < s.file.log.rollSize.bytes ∧
    s.file.log.curBytes + logMsgs.length > s.file.log.rollSize.bytes

/-- No file is rolled to the name of an earlier one. -/
def Fresh (s : State) (label : Label) : Prop :=
  Rolls s label →
    LogFile.getLogFileName localtime s.file.log.basename label.clock ∉ s.file.files

end

/-- The bytes passed to LogFile::append so far. -/
def written (s : LogPipeline.State) : Bytes := s.logFile.flatMap Record.bytes

/-- What a step of the logger can do to the buffers, and where run() is before and behind
it. -/
inductive Moved (s : LogPipeline.State) : LogPipeline.Label → LogPipeline.State → Prop
  | append (now : TimeStamp) (logline : Bytes) (len : Nat) (level : Level) :
      Moved s (.append now logline len level)
        { s with logger := s.logger.append now logline len level }
  | quiet {label : LogPipeline.Label} {t : LogPipeline.State} (passes : passed s label = none)
      (exits : t.background = .exited ↔ s.background = .exited ∨ leaves s label = true)
      (accepted : t.logger.accepted = s.logger.accepted)
      (current : t.logger.currentBuffer = s.logger.currentBuffer)
      (full : t.logger.fullBuffers = s.logger.fullBuffers) (toWrite : t.toWrite = s.toWrite)
      (logFile : t.logFile = s.logFile) (dropped : t.dropped = s.dropped) : Moved s label t
  | swap {label : LogPipeline.Label} (passes : passed s label = none)
      (stays : leaves s label = false)
      (before : s.background = .locking ∨ s.background = .waiting) : Moved s label s.swap
  | drop (now : TimeStamp) (stack : Bytes) (last : FixedBuffer)
      (behind : s.background = .swapped)
      (many : maxBufferCounts - 1 < s.toWrite.length)
      (found : s.toWrite[maxBufferCounts - 1]? = some last) :
      Moved s (.overload now stack)
        { s with
          background := .writing
          toWrite := s.toWrite.eraseIdx (maxBufferCounts - 1)
          dropped := s.dropped ++ last.lines
          logFile := s.logFile ++ [.notice (notice now (s.toWrite.length + 1) stack)] }
  | write (first : FixedBuffer) (rest : List FixedBuffer) (behind : s.background = .writing)
      (batch : s.toWrite = first :: rest) :
      Moved s .write
        { s with
          toWrite := rest
          cleared := s.cleared ++ [first.clear]
          logFile := s.logFile ++ [.buffer first.lines] }

theorem next_moved (s t : LogPipeline.State) (label : LogPipeline.Label)
    (enabled : Enabled s label) (moved : LogPipeline.next s label = some t) : Moved s label t := by
  cases label with
  | append now logline len level =>
      cases moved
      exact .append now logline len level
  | stop =>
      cases moved
      exact .quiet rfl (by simp [leaves]) rfl rfl rfl rfl rfl rfl
  | loopTest =>
      have at_ : s.background = .loopTest := enabled
      simp only [LogPipeline.next] at moved
      split at moved
      · rename_i stopped
        cases moved
        exact .quiet rfl (by simp [leaves, stopped]) rfl rfl rfl rfl rfl rfl
      · rename_i running
        split at moved
        · cases moved
          exact .quiet rfl (by simp [leaves, running, at_]) rfl rfl rfl rfl rfl rfl
        · cases moved
  | lock =>
      have at_ : s.background = .locking := enabled
      simp only [LogPipeline.next] at moved
      split at moved
      · cases moved
        exact .quiet rfl (by simp [leaves, at_]) rfl rfl rfl rfl rfl rfl
      · cases moved
        exact .swap rfl rfl (Or.inl at_)
  | wake =>
      cases moved
      exact .swap rfl rfl (Or.inr enabled)
  | overload now stack =>
      have at_ : s.background = .swapped := enabled
      simp only [LogPipeline.next] at moved
      split at moved
      · split at moved
        · rename_i many
          have found := List.getElem?_eq_getElem many
          rw [found] at moved
          cases moved
          exact .drop now stack _ at_ many found
        · rename_i few
          cases moved
          exact .quiet (if_neg few) (by simp [leaves, at_]) rfl rfl rfl rfl rfl rfl
      · cases moved
  | write =>
      obtain ⟨at_, some⟩ := enabled
      cases batch : s.toWrite with
      | nil => exact absurd batch some
      | cons first rest =>
          simp only [LogPipeline.next, batch, Option.some.injEq] at moved
          subst moved
          exact .write first rest at_ batch
  | giveBack =>
      obtain ⟨at_, none⟩ := enabled
      cases moved
      exact .quiet rfl (by simp [leaves, at_]) rfl rfl rfl rfl rfl rfl

/-- A step passes what it adds to the records. -/
theorem Moved.written {s t : LogPipeline.State} {label : LogPipeline.Label}
    (moved : Moved s label t) :
    LogStorage.written t = LogStorage.written s ++ (passed s label).getD [] := by
  unfold LogStorage.written
  cases moved with
  | append now logline len level => exact (List.append_nil _).symm
  | quiet passes _ _ _ _ _ logFile _ => rw [logFile, passes, Option.getD_none, List.append_nil]
  | swap passes _ _ => rw [passes, Option.getD_none, List.append_nil]; rfl
  | drop now stack last _ many _ =>
      rw [List.flatMap_append, List.flatMap_singleton, passed, if_pos many]
      rfl
  | write first rest _ batch =>
      rw [List.flatMap_append, List.flatMap_singleton, passed, batch]
      rfl

theorem Moved.exits {s t : LogPipeline.State} {label : LogPipeline.Label}
    (moved : Moved s label t) :
    t.background = .exited ↔ s.background = .exited ∨ leaves s label = true := by
  cases moved with
  | append now logline len level => simp [leaves]
  | quiet _ exits => exact exits
  | swap _ stays before =>
      have behind : s.swap.background = .swapped := rfl
      rcases before with at_ | at_
      · simp [behind, at_, stays]
      · simp [behind, at_, stays]
  | drop now stack last behind _ _ => simp [leaves, behind]
  | write first rest behind _ => simp [leaves, behind]

/-- Nothing is passed once run() has left. -/
theorem Moved.running {s t : LogPipeline.State} {label : LogPipeline.Label}
    (moved : Moved s label t) (passes : passed s label ≠ none) :
    s.background ≠ .exited ∧ leaves s label = false := by
  cases moved with
  | append now logline len level => exact absurd rfl passes
  | quiet silent => exact absurd silent passes
  | swap silent _ _ => exact absurd silent passes
  | drop now stack last behind _ _ => exact ⟨by rw [behind]; decide, rfl⟩
  | write first rest behind _ => exact ⟨by rw [behind]; decide, rfl⟩

/-- The lines on their way are accepted ones in their order, and what is missing among
them has been dropped. -/
structure Account (s : LogPipeline.State) : Prop where
  order : s.stream.Sublist s.logger.accepted
  complete : (s.stream ++ s.dropped).Perm s.logger.accepted

/-- Lines that come behind the others. -/
theorem Account.grow {s t : LogPipeline.State} (account : Account s) (new : List Line)
    (stream : t.stream = s.stream ++ new)
    (accepted : t.logger.accepted = s.logger.accepted ++ new) (dropped : t.dropped = s.dropped) :
    Account t := by
  constructor
  · rw [stream, accepted]
    exact account.order.append (List.Sublist.refl new)
  · rw [stream, accepted, dropped, List.append_assoc]
    have swapped : (new ++ s.dropped).Perm (s.dropped ++ new) := List.perm_append_comm
    apply (swapped.append_left s.stream).trans
    rw [← List.append_assoc]
    exact account.complete.append_right new

/-- Lines that are taken out from among the others. -/
theorem Account.lose {s t : LogPipeline.State} (account : Account s) (front gone back : List Line)
    (stream : s.stream = front ++ (gone ++ back)) (left : t.stream = front ++ back)
    (accepted : t.logger.accepted = s.logger.accepted)
    (dropped : t.dropped = s.dropped ++ gone) : Account t := by
  constructor
  · rw [left, accepted]
    apply List.Sublist.trans _ account.order
    rw [stream]
    exact (List.sublist_append_right gone back).append_left front
  · rw [left, accepted, dropped]
    apply List.Perm.trans _ account.complete
    rw [stream, List.append_assoc, List.append_assoc]
    apply List.Perm.append_left
    rw [← List.append_assoc]
    exact List.perm_append_comm.trans (List.append_assoc gone back s.dropped ▸ List.Perm.refl _)

theorem Moved.account {s t : LogPipeline.State} {label : LogPipeline.Label}
    (moved : Moved s label t) (ordered : Orderly s) (account : Account s) : Account t := by
  cases moved with
  | append now logline len level =>
      obtain ⟨new, waits, takes⟩ := append_accepted s.logger now logline len level ordered.pooled
      refine account.grow new ?_ takes rfl
      unfold LogPipeline.State.stream
      dsimp only
      rw [waits, List.append_assoc, List.append_assoc, List.append_assoc]
  | quiet _ _ accepted current full toWrite logFile dropped =>
      refine account.grow [] ?_ (by rw [accepted, List.append_nil]) dropped
      rw [List.append_nil, LogPipeline.State.stream, LogPipeline.State.stream, waiting, waiting,
        logFile, toWrite, full, current]
  | swap _ _ before =>
      obtain ⟨_, _, accepted, none, same, _⟩ := swap_spec s ordered before
      have idle : s.toWrite = [] := by
        rcases before with at_ | at_
        · exact (ordered.idle (by rw [at_]; decide) (by rw [at_]; decide)).2
        · exact (ordered.idle (by rw [at_]; decide) (by rw [at_]; decide)).2
      refine account.grow [] ?_ (by rw [accepted, List.append_nil]) rfl
      rw [List.append_nil, LogPipeline.State.stream, LogPipeline.State.stream, idle, ← same,
        waiting, none, List.flatMap_nil, List.nil_append, List.append_nil, List.append_assoc]
      rfl
  | drop now stack last _ many found =>
      have parts : s.toWrite = s.toWrite.take (maxBufferCounts - 1) ++
          last :: s.toWrite.drop (maxBufferCounts - 1 + 1) := by
        obtain ⟨_, here⟩ := List.getElem?_eq_some_iff.mp found
        rw [← here, ← List.drop_eq_getElem_cons many, List.take_append_drop]
      refine account.lose
        (s.logFile.flatMap Record.lines ++
          (s.toWrite.take (maxBufferCounts - 1)).flatMap FixedBuffer.lines) last.lines
        ((s.toWrite.drop (maxBufferCounts - 1 + 1)).flatMap FixedBuffer.lines ++
          s.logger.waiting) ?_ ?_ rfl rfl
      · conv_lhs => rw [LogPipeline.State.stream, parts]
        rw [List.flatMap_append, List.flatMap_cons]
        simp only [List.append_assoc]
      · unfold LogPipeline.State.stream
        dsimp only
        rw [List.eraseIdx_eq_take_drop_succ, List.flatMap_append, List.flatMap_append,
          List.flatMap_singleton]
        simp only [Record.lines, List.append_nil, List.append_assoc]
  | write first rest _ batch =>
      refine account.grow [] ?_ (by rw [List.append_nil]) rfl
      rw [List.append_nil, LogPipeline.State.stream, LogPipeline.State.stream, batch]
      simp only [List.flatMap_append, List.flatMap_cons, List.flatMap_nil, Record.lines,
        List.append_nil, List.append_assoc]

/-- FixedBuffer::append wants more room than the line needs. -/
theorem append_size_lt (b : FixedBuffer) (line : Line) (spare : b.size < b.capacity) :
    (b.append line).size < b.capacity := by
  have lines := FixedBuffer.append_lines b line
  by_cases room : b.accepts line = true
  · have free := (FixedBuffer.accepts_iff b line).mp room
    rw [if_pos room] at lines
    rw [FixedBuffer.size, FixedBuffer.data, lines, linesBytes_append, List.length_append,
      linesBytes_single]
    unfold FixedBuffer.avail FixedBuffer.size FixedBuffer.data at free
    omega
  · rw [if_neg room, List.append_nil] at lines
    rw [FixedBuffer.size, FixedBuffer.data, lines]
    exact spare

theorem create_size_lt : (FixedBuffer.create blockSize).size < blockSize := by
  have empty : (FixedBuffer.create blockSize).size = 0 := rfl
  rw [empty, blockSize]
  omega

/-- No buffer on its way to the file is full to the last byte. -/
structure Spare (s : LogPipeline.State) : Prop where
  current : s.logger.currentBuffer.size < blockSize
  fulls : ∀ b ∈ s.logger.fullBuffers, b.size < blockSize
  batch : ∀ b ∈ s.toWrite, b.size < blockSize

theorem started_spare : Spare LogPipeline.started := by
  refine ⟨create_size_lt, ?_, ?_⟩
  · intro b member
    cases member
  · intro b member
    cases member

theorem put_size_lt (l : AsyncLogger) (text : Bytes) (pooled : Pooled l)
    (free : l.currentBuffer.size < blockSize) : (l.put text).currentBuffer.size < blockSize := by
  rw [← pooled.current] at free ⊢
  rw [put_current]
  exact append_size_lt l.currentBuffer ⟨l.appends, text⟩ free

theorem append_spare (s : LogPipeline.State) (now : TimeStamp) (logline : Bytes) (len : Nat)
    (level : Level) (ordered : Orderly s) (spare : Spare s) :
    Spare { s with logger := s.logger.append now logline len level } := by
  generalize made : s.logger.append now logline len level = l
  rw [append_eq] at made
  split at made
  · obtain ⟨pooled, current, full, _⟩ := updateCurBuffer_spec s.logger ordered.pooled
    have free : s.logger.updateCurBuffer.currentBuffer.size < blockSize := by
      rw [current]
      exact create_size_lt
    subst made
    refine ⟨put_size_lt _ _ pooled free, ?_, spare.batch⟩
    intro b member
    rw [put_fullBuffers, full] at member
    rcases List.mem_append.mp member with old | new
    · exact spare.fulls b old
    · rw [List.mem_singleton.mp new]
      exact spare.current
  · subst made
    refine ⟨put_size_lt _ _ ordered.pooled spare.current, ?_, spare.batch⟩
    intro b member
    rw [put_fullBuffers] at member
    exact spare.fulls b member

theorem swap_spare (s : LogPipeline.State) (ordered : Orderly s) (spare : Spare s)
    (before : s.background = .locking ∨ s.background = .waiting) : Spare s.swap := by
  obtain ⟨_, _, _, none, _, rotated, taken⟩ := swap_spec s ordered before
  by_cases empty : s.logger.fullBuffers = []
  · refine ⟨?_, by rw [none]; exact fun _ member => (by cases member), ?_⟩
    · unfold LogPipeline.State.swap
      dsimp only
      rw [if_pos empty, (updateCurBuffer_spec s.logger ordered.pooled).2.1]
      exact create_size_lt
    · intro b member
      rw [rotated empty] at member
      rw [List.mem_singleton.mp member]
      exact spare.current
  · refine ⟨?_, by rw [none]; exact fun _ member => (by cases member), ?_⟩
    · unfold LogPipeline.State.swap
      dsimp only
      rw [if_neg empty]
      exact spare.current
    · intro b member
      rw [taken empty] at member
      exact spare.fulls b member

theorem Moved.spare {s t : LogPipeline.State} {label : LogPipeline.Label}
    (moved : Moved s label t) (ordered : Orderly s) (spare : Spare s) : Spare t := by
  cases moved with
  | append now logline len level =>
      exact append_spare s now logline len level ordered spare
  | quiet _ _ _ current full toWrite _ _ =>
      refine ⟨?_, ?_, ?_⟩
      · rw [current]
        exact spare.current
      · rw [full]
        exact spare.fulls
      · rw [toWrite]
        exact spare.batch
  | swap _ _ before => exact swap_spare s ordered spare before
  | drop now stack last _ _ _ =>
      refine ⟨spare.current, spare.fulls, ?_⟩
      intro b member
      exact spare.batch b (List.mem_of_mem_eraseIdx member)
  | write first rest _ batch =>
      refine ⟨spare.current, spare.fulls, ?_⟩
      intro b member
      apply spare.batch b
      rw [batch]
      exact List.mem_cons_of_mem first member

/-- A notice has 256 bytes at most, and a buffer less than a block. -/
theorem passed_length (s : LogPipeline.State) (label : LogPipeline.Label) (logMsgs : Bytes)
    (spare : Spare s) (passes : passed s label = some logMsgs) : logMsgs.length < blockSize := by
  cases label with
  | write =>
      obtain ⟨first, head, rfl⟩ := Option.map_eq_some_iff.mp passes
      exact spare.batch first (List.mem_of_mem_head? head)
  | overload now stack =>
      simp only [passed] at passes
      split at passes
      · cases passes
        exact Nat.lt_of_le_of_lt (List.length_take_le _ _) (by decide)
      · cases passes
  | append | stop | loopTest | lock | wake | giveBack => cases passes

/-- The LogFile is in use, and has put the bytes where they belong. -/
def Open (file : LogFile.State) (bytes : Bytes) : Prop :=
  ∃ m old data, LogFile.Intact file m old data ∧ file.disk.contents old ++ data = bytes

/-- The LogFile is gone, and has left the bytes. -/
def Closed (file : LogFile.State) (bytes : Bytes) : Prop :=
  file.log.curMMap = none ∧ file.onDisk = bytes

theorem Open.destroyed {file : LogFile.State} {bytes : Bytes} (opened : Open file bytes) :
    Closed file.destroy bytes := by
  obtain ⟨m, old, data, intact, contents⟩ := opened
  exact ⟨rfl, intact.onDisk.trans contents⟩

theorem Closed.destroyed {file : LogFile.State} {bytes : Bytes} (closed : Closed file bytes) :
    file.destroy = file := by
  have gone := closed.1
  obtain ⟨disk, ⟨basename, rollSize, curBytes, curMMap⟩, files⟩ := file
  cases gone
  rfl

structure Invariant (rollSize : RollSize) (s : State) : Prop where
  ordered : Orderly s.pipeline
  account : Account s.pipeline
  spare : Spare s.pipeline
  size : s.file.log.rollSize = rollSize
  opened : s.pipeline.background ≠ .exited → Open s.file (written s.pipeline)
  closed : s.pipeline.background = .exited → Closed s.file (written s.pipeline)

section

variable (localtime : Nat → TimeStamp.Tm)

theorem started_invariant (disk : Disk) (basename : Bytes) (rollSize : RollSize)
    (now : Nat) (file : LogFile.State)
    (made : LogFile.create localtime disk basename rollSize now = some file) :
    Invariant rollSize (started file) := by
  obtain ⟨intact, size, _⟩ := LogFile.create_intact localtime disk basename rollSize now made
  refine ⟨started_orderly, ⟨List.Sublist.refl _, List.Perm.refl _⟩, started_spare, size, ?_, ?_⟩
  · intro _
    exact ⟨_, _, _, intact, rfl⟩
  · intro exited
    cases exited

variable {rollSize : RollSize} {s : State} {label : Label}

/-- The LogFile's part of a step. -/
theorem store_spec (inv : Invariant rollSize s) (large : blockSize ≤ rollSize.bytes)
    (fresh : Fresh localtime s label) (t : LogPipeline.State)
    (moved : Moved s.pipeline label.act t) :
    ∃ file, store localtime s label = some file ∧ file.log.rollSize = rollSize ∧
      (t.background ≠ .exited → Open file (written t)) ∧
      (t.background = .exited → Closed file (written t)) := by
  have exits := moved.exits
  have bytes := moved.written
  cases passes : passed s.pipeline label.act with
  | none =>
      rw [passes, Option.getD_none, List.append_nil] at bytes
      rw [store, passes]
      dsimp only
      by_cases leave : leaves s.pipeline label.act = true
      · rw [if_pos leave]
        refine ⟨_, rfl, inv.size, fun runs => absurd (exits.mpr (Or.inr leave)) runs, ?_⟩
        intro _
        rw [bytes]
        by_cases exited : s.pipeline.background = .exited
        · rw [(inv.closed exited).destroyed]
          exact inv.closed exited
        · exact (inv.opened exited).destroyed
      · have same : t.background = .exited ↔ s.pipeline.background = .exited :=
          ⟨fun exited => (exits.mp exited).resolve_right leave,
            fun exited => exits.mpr (Or.inl exited)⟩
        rw [if_neg leave, bytes]
        exact ⟨_, rfl, inv.size, fun runs => inv.opened (mt same.mpr runs),
          fun exited => inv.closed (same.mp exited)⟩
  | some logMsgs =>
      obtain ⟨runs, stays⟩ := moved.running (by rw [passes]; simp)
      rw [passes, Option.getD_some] at bytes
      obtain ⟨m, old, data, intact, contents⟩ := inv.opened runs
      have small : logMsgs.length < s.file.log.rollSize.bytes := by
        rw [inv.size]
        exact Nat.lt_of_lt_of_le
          (passed_length s.pipeline label.act logMsgs inv.spare passes) large
      obtain ⟨file, n, before, more, appended, next, grown, _, size, _⟩ :=
        intact.append localtime ⟨label.clock, logMsgs⟩ small (by
          intro full
          apply fresh
          refine ⟨logMsgs, passes, small, ?_⟩
          rw [intact.counted]
          exact full)
      rw [store, passes]
      refine ⟨file, appended, size.trans inv.size, ?_, ?_⟩
      · intro _
        refine ⟨n, before, more, next, ?_⟩
        rw [grown, contents, bytes]
      · intro exited
        rcases exits.mp exited with already | leave
        · exact absurd already runs
        · rw [stays] at leave
          cases leave

theorem next_spec (inv : Invariant rollSize s) (large : blockSize ≤ rollSize.bytes)
    (enabled : (machine localtime).enabled s label) (fresh : Fresh localtime s label) :
    ∃ t, next localtime s label = some t ∧ Invariant rollSize t := by
  obtain ⟨pipeline, stepped, ordered⟩ := next_orderly s.pipeline label.act inv.ordered enabled
  have moved := next_moved s.pipeline pipeline label.act enabled stepped
  obtain ⟨file, stored, size, opened, closed⟩ := store_spec localtime inv large fresh pipeline moved
  refine ⟨⟨pipeline, file⟩, ?_, ordered, moved.account inv.ordered inv.account,
    moved.spare inv.ordered inv.spare, size, opened, closed⟩
  rw [next, stepped, Option.bind_some, stored]
  rfl

/-- The logger and its LogFile, in the runs whose files all get names of their own. -/
def orderly : Machine State Label := (machine localtime).restrict (Fresh localtime)

/-- The same in runs without overload. -/
def bearable : Machine State Label :=
  (orderly localtime).restrict fun s label => Bearable s.pipeline label.act

theorem invariant_preserves (large : blockSize ≤ rollSize.bytes) :
    (orderly localtime).Preserves (Invariant rollSize) := by
  intro s label t inv enabled moved
  obtain ⟨u, stepped, kept⟩ := next_spec localtime inv large enabled.1 enabled.2
  obtain rfl : u = t := Option.some.inj (stepped.symm.trans moved)
  exact kept

/-- What the files hold once the LogFile is gone. -/
theorem Invariant.onDisk (inv : Invariant rollSize s) :
    s.file.destroy.onDisk = written s.pipeline := by
  by_cases exited : s.pipeline.background = .exited
  · rw [(inv.closed exited).destroyed]
    exact (inv.closed exited).2
  · exact (inv.opened exited).destroyed.2

/-- In every run whose files get names of their own, with a roll size of a block or
more: once the LogFile is gone, the files hold what has been passed to it, in order; and
the lines written, to be written and waiting are the accepted ones in their order, but for
those of the buffers that were dropped. -/
theorem logStorage_accounts (disk : Disk) (basename : Bytes) (rollSize : RollSize) (first : Nat)
    (file : LogFile.State)
    (made : LogFile.create localtime disk basename rollSize first = some file)
    (large : blockSize ≤ rollSize.bytes) (labels : List Label) (s : State)
    (run : (orderly localtime).Run (started file) labels s) :
    s.file.destroy.onDisk = s.pipeline.logFile.flatMap Record.bytes ∧
      (s.pipeline.background = .exited → s.file.destroy = s.file) ∧
      s.pipeline.stream.Sublist s.pipeline.logger.accepted ∧
      (s.pipeline.stream ++ s.pipeline.dropped).Perm s.pipeline.logger.accepted := by
  have start := started_invariant localtime disk basename rollSize first file made
  have inv := run.invariant (invariant_preserves localtime large) start
  exact ⟨inv.onDisk, fun exited => (inv.closed exited).destroyed, inv.account.order,
    inv.account.complete⟩

/-- A step that leaves the LogFile alone. -/
theorem quiet_run (s : State) (act : LogPipeline.Label) (t : LogPipeline.State)
    (labels : List Label) (u : State) (enabled : Enabled s.pipeline act)
    (few : Bearable s.pipeline act) (silent : passed s.pipeline act = none)
    (stays : leaves s.pipeline act = false) (moved : LogPipeline.next s.pipeline act = some t)
    (rest : (bearable localtime).Run ⟨t, s.file⟩ labels u) :
    (bearable localtime).Run s (⟨act, 0⟩ :: labels) u := by
  refine .cons ⟨⟨enabled, ?_⟩, few⟩ ?_ rest
  · intro ⟨logMsgs, passes, _⟩
    rw [silent] at passes
    cases passes
  · have kept : store localtime s ⟨act, 0⟩ = some s.file := by
      rw [store, silent]
      dsimp only
      rw [stays]
      rfl
    change next localtime s ⟨act, 0⟩ = some ⟨t, s.file⟩
    rw [next, moved, kept]
    rfl

/-- A run up to the write of a buffer with one message. -/
def upToWrite (n : Nat) : List Label :=
  [⟨.append 0 (LogAppend.letters n).logline n .DEBUG, 0⟩, ⟨.loopTest, 0⟩, ⟨.lock, 0⟩, ⟨.wake, 0⟩,
    ⟨.overload 0 [], 0⟩]

/-- Nothing has been taken from the buffers. -/
def untaken (logger : AsyncLogger) (place : Background) : LogPipeline.State :=
  ⟨logger, place, [], [], [], [], false, []⟩

theorem untaken_orderly (logger : AsyncLogger) (place : Background) (pooled : Pooled logger)
    (outside : place ≠ .swapped) : Orderly (untaken logger place) :=
  ⟨pooled, List.forall_mem_nil _, List.forall_mem_nil _, fun _ => rfl, fun _ _ => rfl,
    fun swapped => absurd swapped outside⟩

/-- A first message stays in the first buffer. -/
theorem letters_append (n : Nat) (short : n + 32 < blockSize) :
    (AsyncLogger.create.append 0 (LogAppend.letters n).logline n .DEBUG).fullBuffers = [] ∧
      (AsyncLogger.create.append 0 (LogAppend.letters n).logline n .DEBUG).currentBuffer.lines =
        [⟨0, (LogAppend.letters n).text⟩] := by
  have stays : ¬ AsyncLogger.create.currentBuffer.avail < n := by
    rw [LogAppend.created_avail]
    omega
  have room : AsyncLogger.create.currentBuffer.accepts
      ⟨AsyncLogger.create.appends, (LogAppend.letters n).text⟩ = true := by
    rw [FixedBuffer.accepts_iff, LogAppend.created_avail, LogAppend.letters_length]
    exact short
  constructor
  · rw [append_eq, if_neg stays]
    rfl
  · have lines := FixedBuffer.append_lines AsyncLogger.create.currentBuffer
      ⟨AsyncLogger.create.appends, (LogAppend.letters n).text⟩
    rw [if_pos room] at lines
    rw [append_eq, if_neg stays, put_current]
    exact lines

/-- The test for an overload that finds none. -/
theorem overload_few (s : LogPipeline.State) (cleared : s.cleared = []) (loaded : s.toWrite ≠ [])
    (few : s.toWrite.length ≤ maxBufferCounts - 1) :
    LogPipeline.next s (.overload 0 []) = some { s with background := .writing } := by
  have batch : s.cleared ++ s.toWrite ≠ [] := by
    rw [cleared]
    exact loaded
  rw [LogPipeline.next, if_pos batch, if_neg (Nat.not_lt.mpr few)]

theorem upToWrite_run (n : Nat) (short : n + 32 < blockSize) (file : LogFile.State) :
    ∃ s, (bearable localtime).Run (started file) (upToWrite n) s ∧
      s.file = file ∧ s.pipeline.background = .writing ∧ s.pipeline.logFile = [] ∧
      ∃ buffer, s.pipeline.toWrite = [buffer] ∧
        buffer.lines = [⟨0, (LogAppend.letters n).text⟩] := by
  obtain ⟨none, lines⟩ := letters_append n short
  have pooled := append_pooled AsyncLogger.create 0 (LogAppend.letters n).logline n .DEBUG
    create_pooled
  generalize made : AsyncLogger.create.append 0 (LogAppend.letters n).logline n .DEBUG = l at *
  have ordered := untaken_orderly l .waiting pooled (by decide)
  have batch : (untaken l .waiting).swap.toWrite = [l.currentBuffer] :=
    (swap_spec (untaken l .waiting) ordered (Or.inr rfl)).2.2.2.2.2.1 none
  have few : (untaken l .waiting).swap.toWrite.length ≤ maxBufferCounts - 1 := by
    rw [batch, List.length_singleton]
    decide
  have tested := overload_few (untaken l .waiting).swap rfl (by rw [batch]; simp) few
  have appended : LogPipeline.next LogPipeline.started
      (.append 0 (LogAppend.letters n).logline n .DEBUG) = some (untaken l .loopTest) := by
    rw [← made]
    rfl
  refine ⟨⟨{ (untaken l .waiting).swap with background := .writing }, file⟩, ?_, rfl, rfl,
    rfl, l.currentBuffer, batch, lines⟩
  refine quiet_run localtime _ _ (untaken l .loopTest) _ _ trivial trivial rfl rfl appended ?_
  refine quiet_run localtime _ _ (untaken l .locking) _ _ rfl trivial rfl rfl rfl ?_
  refine quiet_run localtime _ _ (untaken l .waiting) _ _ rfl trivial rfl rfl (if_pos none) ?_
  refine quiet_run localtime _ _ (untaken l .waiting).swap _ _ rfl trivial rfl rfl rfl ?_
  exact quiet_run localtime _ _ _ _ _ rfl few (if_neg (Nat.not_lt.mpr few)) rfl tested .nil

theorem letters_data (n : Nat) (buffer : FixedBuffer)
    (lines : buffer.lines = [⟨0, (LogAppend.letters n).text⟩]) : buffer.data.length = n + 32 := by
  rw [FixedBuffer.data, lines, linesBytes_single, LogAppend.letters_length]

/-- LogFile::append's assertion, and every other, holds in all runs whose files get
names of their own, exactly when the roll size is a block or more. -/
theorem rollSize_suffices_iff (disk : Disk) (basename : Bytes) (rollSize : RollSize)
    (first : Nat) (file : LogFile.State)
    (made : LogFile.create localtime disk basename rollSize first = some file) :
    (∀ labels s label, (orderly localtime).Run (started file) labels s →
        (orderly localtime).enabled s label → ∃ t, (orderly localtime).step s label = some t) ↔
      blockSize ≤ rollSize.bytes := by
  constructor
  · intro completes
    by_contra small
    obtain ⟨s, run, same, at_, _, buffer, batch, lines⟩ :=
      upToWrite_run localtime (blockSize - 33) (by decide) file
    have passes : passed s.pipeline .write = some buffer.data := by rw [passed, batch]; rfl
    have large : ¬ buffer.data.length < s.file.log.rollSize.bytes := by
      have whole : s.file.log.rollSize = rollSize := by
        rw [same]
        exact (LogFile.create_intact localtime disk basename rollSize first made).2.1
      rw [whole, letters_data _ buffer lines]
      omega
    have fresh : Fresh localtime s ⟨.write, 0⟩ := by
      intro ⟨logMsgs, taken, less, _⟩
      obtain rfl : buffer.data = logMsgs := Option.some.inj (passes.symm.trans taken)
      exact absurd less large
    obtain ⟨t, moved⟩ := completes _ s ⟨.write, 0⟩ run.of_restrict
      ⟨⟨at_, by rw [batch]; simp⟩, fresh⟩
    have refused : store localtime s ⟨.write, 0⟩ = none := by
      rw [store, passes]
      exact if_neg large
    change next localtime s ⟨.write, 0⟩ = some t at moved
    rw [next, refused] at moved
    obtain ⟨pipeline, _, none⟩ := Option.bind_eq_some_iff.mp moved
    cases none
  · intro large labels s label run enabled
    have start := started_invariant localtime disk basename rollSize first file made
    have inv := run.invariant (invariant_preserves localtime large) start
    obtain ⟨t, moved, _⟩ := next_spec localtime inv large enabled.1 enabled.2
    exact ⟨t, moved⟩

end

/-- LogFile::defaultRollSize. -/
def defaultRollSize : RollSize := ⟨128 * 1024 * 1024, by decide, by decide⟩

theorem blockSize_le_default : blockSize ≤ defaultRollSize.bytes := by
  have bytes : defaultRollSize.bytes = 128 * 1024 * 1024 := rfl
  rw [bytes, blockSize]
  omega

/-- The LogFile of a logger with the default roll size, at the beginning of the epoch. -/
def logFile : LogFile.State :=
  LogFile.State.rollFile TimeStamp.gmtime
    ⟨fun _ => none, ⟨ascii "log", defaultRollSize, 0, none⟩, []⟩ 0

theorem logFile_made :
    LogFile.create TimeStamp.gmtime (fun _ => none) (ascii "log") defaultRollSize 0 =
      some logFile :=
  if_neg (by decide)

/-- A message that does not fit the current buffer starts the next one. -/
theorem letters_rotate (l : AsyncLogger) (n : Nat) (pooled : Pooled l)
    (tight : l.currentBuffer.avail < n) (short : n + 32 < blockSize) :
    (l.append 0 (LogAppend.letters n).logline n .DEBUG).fullBuffers =
        l.fullBuffers ++ [l.currentBuffer] ∧
      (l.append 0 (LogAppend.letters n).logline n .DEBUG).currentBuffer.lines =
        [⟨l.appends, (LogAppend.letters n).text⟩] := by
  obtain ⟨_, current, full, appends, _⟩ := updateCurBuffer_spec l pooled
  have room : l.updateCurBuffer.currentBuffer.accepts
      ⟨l.updateCurBuffer.appends, (LogAppend.letters n).text⟩ = true := by
    rw [FixedBuffer.accepts_iff, current, LogAppend.letters_length]
    exact short
  have lines := FixedBuffer.append_lines l.updateCurBuffer.currentBuffer
    ⟨l.updateCurBuffer.appends, (LogAppend.letters n).text⟩
  rw [if_pos room, current, appends] at lines
  rw [append_eq, if_pos tight, put_fullBuffers, put_current, full, current, appends]
  exact ⟨rfl, lines⟩

theorem letters_left (l : AsyncLogger) (n k : Nat) (pooled : Pooled l)
    (lines : l.currentBuffer.lines = [⟨k, (LogAppend.letters n).text⟩]) :
    l.currentBuffer.avail = blockSize - (n + 32) := by
  rw [FixedBuffer.avail, pooled.current, FixedBuffer.size, FixedBuffer.data, lines,
    linesBytes_single, LogAppend.letters_length]

/-- Two messages that fill a buffer each and a short one, up to the first write. -/
def fill (n : Nat) : List Label :=
  [⟨.append 0 (LogAppend.letters n).logline n .DEBUG, 0⟩,
    ⟨.append 0 (LogAppend.letters n).logline n .DEBUG, 0⟩,
    ⟨.append 0 (LogAppend.letters 5).logline 5 .DEBUG, 0⟩, ⟨.loopTest, 0⟩, ⟨.lock, 0⟩,
    ⟨.overload 0 [], 0⟩]

/-- What the three messages leave in the buffers. -/
theorem filled (n : Nat) (short : n + 32 < blockSize) (long : blockSize < n + 37)
    (large : 37 ≤ n) : ∃ l m r first second,
    AsyncLogger.create.append 0 (LogAppend.letters n).logline n .DEBUG = l ∧
      l.append 0 (LogAppend.letters n).logline n .DEBUG = m ∧
      m.append 0 (LogAppend.letters 5).logline 5 .DEBUG = r ∧ Pooled r ∧
      r.fullBuffers = [first, second] ∧ first.lines = [⟨0, (LogAppend.letters n).text⟩] ∧
      second.lines = [⟨1, (LogAppend.letters n).text⟩] := by
  obtain ⟨none, lines⟩ := letters_append n short
  have pooled := append_pooled AsyncLogger.create 0 (LogAppend.letters n).logline n .DEBUG
    create_pooled
  have count :
      (AsyncLogger.create.append 0 (LogAppend.letters n).logline n .DEBUG).appends = 1 := by
    rw [append_eq]
    split
    · rfl
    · rfl
  generalize made : AsyncLogger.create.append 0 (LogAppend.letters n).logline n .DEBUG = l at *
  have left := letters_left l n 0 pooled lines
  obtain ⟨one, next⟩ := letters_rotate l n pooled (by omega) short
  rw [none, List.nil_append] at one
  rw [count] at next
  have pooled' := append_pooled l 0 (LogAppend.letters n).logline n .DEBUG pooled
  generalize made' : l.append 0 (LogAppend.letters n).logline n .DEBUG = m at *
  have left' := letters_left m n 1 pooled' next
  obtain ⟨two, _⟩ := letters_rotate m 5 pooled' (by omega) (by decide)
  rw [one] at two
  exact ⟨l, m, _, l.currentBuffer, m.currentBuffer, rfl, made', rfl,
    append_pooled m 0 (LogAppend.letters 5).logline 5 .DEBUG pooled', two, lines, next⟩

/-- A run up to the first of two writes. -/
theorem fill_run (n : Nat) (short : n + 32 < blockSize) (long : blockSize < n + 37)
    (large : 37 ≤ n) (file : LogFile.State) :
    ∃ s first second, (bearable TimeStamp.gmtime).Run (started file) (fill n) s ∧
      s.file = file ∧ s.pipeline.background = .writing ∧ s.pipeline.logFile = [] ∧
      s.pipeline.toWrite = [first, second] ∧ first.lines = [⟨0, (LogAppend.letters n).text⟩] ∧
      second.lines = [⟨1, (LogAppend.letters n).text⟩] := by
  obtain ⟨l, m, r, first, second, one, two, three, pooled, fulls, lines, lines'⟩ :=
    filled n short long large
  have ordered := untaken_orderly r .locking pooled (by decide)
  have some : r.fullBuffers ≠ [] := by
    rw [fulls]
    exact List.cons_ne_nil _ _
  have batch : (untaken r .locking).swap.toWrite = [first, second] :=
    ((swap_spec (untaken r .locking) ordered (Or.inl rfl)).2.2.2.2.2.2 some).trans fulls
  have few : (untaken r .locking).swap.toWrite.length ≤ maxBufferCounts - 1 := by
    rw [batch, List.length_cons, List.length_singleton]
    decide
  have tested := overload_few (untaken r .locking).swap rfl (by rw [batch]; simp) few
  refine ⟨⟨{ (untaken r .locking).swap with background := .writing }, file⟩, first, second, ?_, rfl,
    rfl, rfl, batch, lines, lines'⟩
  refine quiet_run _ _ _ (untaken l .loopTest) _ _ trivial trivial rfl rfl ?_ ?_
  · rw [← one]
    rfl
  refine quiet_run _ _ _ (untaken m .loopTest) _ _ trivial trivial rfl rfl ?_ ?_
  · rw [← two]
    rfl
  refine quiet_run _ _ _ (untaken r .loopTest) _ _ trivial trivial rfl rfl ?_ ?_
  · rw [← three]
    rfl
  refine quiet_run _ _ _ (untaken r .locking) _ _ rfl trivial rfl rfl rfl ?_
  refine quiet_run _ _ _ (untaken r .locking).swap _ _ rfl trivial rfl rfl (if_neg some) ?_
  exact quiet_run _ _ _ _ _ _ rfl few (if_neg (Nat.not_lt.mpr few)) rfl tested .nil

/-- The write of one buffer. -/
theorem write_run {rollSize : RollSize} {start s : State} {labels : List Label}
    (run : (bearable TimeStamp.gmtime).Run start labels s) (inv : Invariant rollSize s)
    (large : blockSize ≤ rollSize.bytes) (clock : Nat) (first : FixedBuffer)
    (rest : List FixedBuffer) (at_ : s.pipeline.background = .writing)
    (batch : s.pipeline.toWrite = first :: rest)
    (fresh : Fresh TimeStamp.gmtime s ⟨.write, clock⟩) :
    ∃ file, s.file.append TimeStamp.gmtime ⟨clock, first.data⟩ = some file ∧
      (bearable TimeStamp.gmtime).Run start (labels ++ [⟨.write, clock⟩])
        ⟨{ s.pipeline with
            toWrite := rest
            cleared := s.pipeline.cleared ++ [first.clear]
            logFile := s.pipeline.logFile ++ [.buffer first.lines] }, file⟩ := by
  have enabled : (machine TimeStamp.gmtime).enabled s ⟨.write, clock⟩ :=
    ⟨at_, by rw [batch]; simp⟩
  obtain ⟨t, moved, _⟩ := next_spec TimeStamp.gmtime inv large enabled fresh
  have whole := run.snoc ⟨⟨enabled, fresh⟩, trivial⟩ moved
  obtain ⟨pipeline, stepped, rest⟩ := Option.bind_eq_some_iff.mp moved
  obtain ⟨file, stored, rfl⟩ := Option.map_eq_some_iff.mp rest
  simp only [LogPipeline.next, batch, Option.some.injEq] at stepped
  subst stepped
  rw [store, passed, batch] at stored
  exact ⟨file, stored, whole⟩

/-- A roll size of one block. -/
def oneBlock : RollSize := ⟨blockSize, by decide, by decide⟩

/-- A LogFile of that size. -/
def narrow : LogFile.State :=
  LogFile.State.rollFile TimeStamp.gmtime
    ⟨fun _ => none, ⟨ascii "log", oneBlock, 0, none⟩, []⟩ 0

theorem narrow_made :
    LogFile.create TimeStamp.gmtime (fun _ => none) (ascii "log") oneBlock 0 = some narrow :=
  if_neg (by decide)

/-- Two buffers of one line each are written; for the second one the file is rolled, a
millisecond later. -/
def rolled : List Label := fill (blockSize - 33) ++ [⟨.write, 0⟩] ++ [⟨.write, 1000000⟩]

theorem rolled_run :
    ∃ s, (bearable TimeStamp.gmtime).Run (started narrow) rolled s ∧
      s.file.files = [LogFile.getLogFileName TimeStamp.gmtime (ascii "log") 0,
        LogFile.getLogFileName TimeStamp.gmtime (ascii "log") 1000000] ∧
      s.pipeline.logFile = [.buffer [⟨0, (LogAppend.letters (blockSize - 33)).text⟩],
        .buffer [⟨1, (LogAppend.letters (blockSize - 33)).text⟩]] := by
  obtain ⟨intact, size, name⟩ :=
    LogFile.create_intact TimeStamp.gmtime _ _ oneBlock 0 narrow_made
  obtain ⟨s, first, second, run, same, at_, nothing, batch, lines, lines'⟩ :=
    fill_run (blockSize - 33) (by decide) (by decide) (by decide) narrow
  have large : blockSize ≤ oneBlock.bytes := le_rfl
  have long (buffer : FixedBuffer) (k : Nat)
      (line : buffer.lines = [⟨k, (LogAppend.letters (blockSize - 33)).text⟩]) :
      buffer.data.length = blockSize - 1 := by
    rw [FixedBuffer.data, line, linesBytes_single, LogAppend.letters_length]
    decide
  have start := started_invariant TimeStamp.gmtime _ _ _ 0 narrow narrow_made
  have keeps := invariant_preserves TimeStamp.gmtime large
  -- the first buffer fits the empty file
  have fits : ¬ narrow.log.curBytes + first.data.length > narrow.log.rollSize.bytes := by
    rw [intact.counted, size, long first 0 lines]
    decide
  obtain ⟨file, stored, run⟩ := write_run run (run.of_restrict.invariant keeps start) large 0
    first [second] at_ batch (by
      rintro ⟨logMsgs, passes, _, full⟩
      rw [passed, batch] at passes
      cases passes
      rw [same] at full
      exact absurd full fits)
  rw [same, LogFile.State.append, if_pos (by rw [size, long first 0 lines]; decide),
    if_neg fits] at stored
  obtain ⟨disk, _, _, whole⟩ := LogFile.put_inv intact.mapped first.data file stored
  have files : file.files = [LogFile.getLogFileName TimeStamp.gmtime (ascii "log") 0] := by
    rw [whole]
    exact intact.files
  have bytes : file.log.curBytes = blockSize - 1 := by
    rw [whole]
    exact (congrArg (· + first.data.length) intact.counted).trans
      ((Nat.zero_add _).trans (long first 0 lines))
  have named : file.log.basename = ascii "log" := by
    rw [whole]
    exact name
  have size' : file.log.rollSize = oneBlock := by
    rw [whole]
    exact size
  -- the second one does not fit behind it
  have full : file.log.curBytes + second.data.length > file.log.rollSize.bytes := by
    rw [bytes, size', long second 1 lines']
    decide
  have fresh : LogFile.getLogFileName TimeStamp.gmtime file.log.basename 1000000 ∉ file.files := by
    rw [named, files]
    decide +kernel
  obtain ⟨file', stored', run⟩ := write_run run (run.of_restrict.invariant keeps start) large
    1000000 second [] at_ rfl (fun _ => fresh)
  rw [LogFile.State.append, if_pos (by rw [size', long second 1 lines']; decide),
    if_pos full] at stored'
  obtain ⟨disk', _, _, rfl⟩ := LogFile.put_inv rfl second.data file' stored'
  refine ⟨_, run, ?_, ?_⟩
  · change (if _ then _ else _) = _
    rw [if_neg fresh, files, named]
    rfl
  · change s.pipeline.logFile ++ _ ++ _ = _
    rw [nothing, lines, lines']
    rfl

/-- Each of the two lines written has a file of its own, in which one byte is left over. -/
theorem logStorage_accounts_rolled :
    ∃ s, (orderly TimeStamp.gmtime).Run (started narrow) rolled s ∧
      s.file.files = [LogFile.getLogFileName TimeStamp.gmtime (ascii "log") 0,
        LogFile.getLogFileName TimeStamp.gmtime (ascii "log") 1000000] ∧
      s.file.destroy.onDisk.length = 2 * (blockSize - 1) := by
  obtain ⟨s, run, files, records⟩ := rolled_run
  refine ⟨s, run.of_restrict, files, ?_⟩
  have disk := (logStorage_accounts TimeStamp.gmtime _ _ oneBlock 0 narrow narrow_made le_rfl
    rolled s run.of_restrict).1
  have line (k : Nat) : (Record.buffer
      [⟨k, (LogAppend.letters (blockSize - 33)).text⟩]).bytes.length = blockSize - 33 + 32 := by
    rw [Record.bytes, linesBytes_single, LogAppend.letters_length]
  rw [disk, records, List.flatMap_cons, List.flatMap_singleton, List.length_append, line, line,
    blockSize]

theorem rollSize_suffices_default :
    (∀ labels s label, (orderly TimeStamp.gmtime).Run (started logFile) labels s →
        (orderly TimeStamp.gmtime).enabled s label →
        ∃ t, (orderly TimeStamp.gmtime).step s label = some t) ∧
      blockSize ≤ defaultRollSize.bytes :=
  ⟨(rollSize_suffices_iff TimeStamp.gmtime _ _ _ 0 logFile logFile_made).mpr blockSize_le_default,
    blockSize_le_default⟩

end Tundra.LogStorage
