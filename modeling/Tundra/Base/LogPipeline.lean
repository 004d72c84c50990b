import Mathlib.Data.List.Basic
import Tundra.Library.Machine
import Tundra.Base.AsyncLogger

set_option autoImplicit false

/- The producers of base/AsyncLogger together with its background thread: appends are
atomic under mtx_, and run() is cut at its lock operations and at each write. -/
namespace Tundra.LogPipeline

open Library AsyncLogger

/-- Where the background thread is in run(). -/
inductive Background
  | loopTest
  | locking
  | waiting
  | swapped
  | writing
  | exited
deriving DecidableEq

/-- One call of LogFile::append. -/
inductive Record
  | buffer (lines : List Line)
  | notice (text : Bytes)
deriving DecidableEq

def Record.lines : Record → List Line
  | .buffer lines => lines
  | .notice _ => []

def Record.bytes : Record → Bytes
  | .buffer lines => linesBytes lines
  | .notice text => text

/-- buffersToWrite is `cleared` followed by `toWrite`: the buffers already written and
those still to be. `dropped` are the lines of erased buffers, and `before` the lines
accepted when stop() was called. -/
structure State where
  logger : AsyncLogger
  background : Background
  cleared : List FixedBuffer
  toWrite : List FixedBuffer
  logFile : List Record
  dropped : List Line
  stop : Bool
  before : List Line

inductive Label
  | append (now : TimeStamp) (logline : Bytes) (len : Nat) (level : Level)
  | stop
  | loopTest
  | lock
  | wake
  | overload (now : TimeStamp) (stack : Bytes)
  | write
  | giveBack

/-- The array of 256 bytes that the overload branch logs: the text, its NUL, and
what the stack held behind it. -/
def notice (now : TimeStamp) (buffers : Nat) (stack : Bytes) : Bytes :=
  (snprintf 256 (ascii "Dropped log message at " ++ now.toFormatString ++ ascii ", " ++
    decimal buffers ++ ascii " buffers\n") ++ 0 :: stack).take 256

/-- The end of the locked section: the full buffers, or at least the current one,
change hands with buffersToWrite. -/
def State.swap (s : State) : State :=
  let l := if s.logger.fullBuffers = [] then s.logger.updateCurBuffer else s.logger
  { s with
    logger := { l with fullBuffers := s.cleared ++ s.toWrite }
    cleared := []
    toWrite := l.fullBuffers
    background := .swapped }

/-- A step of run() fails where the assertions on buffersToWrite do. -/
def next (s : State) : Label → Option State
  | .append now logline len level =>
      some { s with logger := s.logger.append now logline len level }
  | .stop => some { s with stop := true, before := s.logger.accepted }
  | .loopTest =>
      if s.stop then some { s with background := .exited }
      else if s.cleared ++ s.toWrite = [] then some { s with background := .locking }
      else none
  | .lock =>
      if s.logger.fullBuffers = [] then some { s with background := .waiting } else some s.swap
  | .wake => some s.swap
  | .overload now stack =>
      if s.cleared ++ s.toWrite ≠ [] then
        if maxBufferCounts - 1 < s.toWrite.length then
          some { s with
            background := .writing
            toWrite := s.toWrite.eraseIdx (maxBufferCounts - 1)
            dropped := s.dropped ++
              (s.toWrite[maxBufferCounts - 1]?).elim [] FixedBuffer.lines
            logFile := s.logFile ++ [.notice (notice now (s.toWrite.length + 1) stack)] }
        else some { s with background := .writing }
      else none
  | .write =>
      match s.toWrite with
      | [] => none
      | first :: rest => some { s with
          toWrite := rest
          cleared := s.cleared ++ [first.clear]
          logFile := s.logFile ++ [.buffer first.lines] }
  | .giveBack => some { s with
      logger := { s.logger with emptyBuffers := s.cleared.reverse ++ s.logger.emptyBuffers }
      cleared := []
      background := .loopTest }

/-- `overload` is the test for it behind the swap, whether or not it finds too many
buffers. -/
def Enabled (s : State) : Label → Prop
  | .append _ _ _ _ => True
  | .stop => s.stop = false
  | .loopTest => s.background = .loopTest
  | .lock => s.background = .locking
  | .wake => s.background = .waiting
  | .overload _ _ => s.background = .swapped
  | .write => s.background = .writing ∧ s.toWrite ≠ []
  | .giveBack => s.background = .writing ∧ s.toWrite = []

def machine : Machine State Label where
  enabled := Enabled
  step := next

/-- The logger behind start(). -/
def started : State := ⟨AsyncLogger.create, .loopTest, [], [], [], [], false, []⟩

/-- The step does not enter the overload branch. -/
def Bearable (s : State) : Label → Prop
  | .overload _ _ => s.toWrite.length ≤ maxBufferCounts - 1
  | _ => True

/-- Where buffersToWrite holds what, and that every buffer is as large as a block and
cleared before it goes back. -/
structure Orderly (s : State) : Prop where
  pooled : Pooled s.logger
  sizes : ∀ b ∈ s.toWrite, b.capacity = blockSize
  clears : ∀ b ∈ s.cleared, b = FixedBuffer.create blockSize
  uncleared : s.background ≠ .writing → s.cleared = []
  unswapped : s.background ≠ .swapped → s.background ≠ .writing → s.toWrite = []
  loaded : s.background = .swapped → s.toWrite ≠ []

theorem started_orderly : Orderly started := by
  refine ⟨create_pooled, ?_, ?_, fun _ => rfl, fun _ _ => rfl, ?_⟩
  · intro b member
    cases member
  · intro b member
    cases member
  · intro impossible
    cases impossible

theorem Orderly.idle {s : State} (ordered : Orderly s) (outside : s.background ≠ .writing)
    (outside' : s.background ≠ .swapped) : s.cleared = [] ∧ s.toWrite = [] :=
  ⟨ordered.uncleared outside, ordered.unswapped outside' outside⟩

/-- From one place outside the round to another. -/
theorem Orderly.move {s : State} (ordered : Orderly s) (background : Background)
    (outside : s.background ≠ .writing) (outside' : s.background ≠ .swapped)
    (elsewhere : background ≠ .swapped) : Orderly { s with background := background } := by
  obtain ⟨uncleared, unswapped⟩ := ordered.idle outside outside'
  exact ⟨ordered.pooled, ordered.sizes, ordered.clears, fun _ => uncleared, fun _ _ => unswapped,
    fun swapped => absurd swapped elsewhere⟩

/-- The swap of the locked section, with nothing left in buffersToWrite. -/
theorem swap_spec (s : State) (ordered : Orderly s)
    (before : s.background = .locking ∨ s.background = .waiting) :
    Orderly s.swap ∧ s.swap.toWrite ≠ [] ∧
      s.swap.logger.accepted = s.logger.accepted ∧ s.swap.logger.fullBuffers = [] ∧
      s.swap.toWrite.flatMap FixedBuffer.lines ++ s.swap.logger.currentBuffer.lines =
        s.logger.waiting ∧
      (s.logger.fullBuffers = [] → s.swap.toWrite = [s.logger.currentBuffer]) ∧
      (s.logger.fullBuffers ≠ [] → s.swap.toWrite = s.logger.fullBuffers) := by
  have outside : s.background ≠ .writing ∧ s.background ≠ .swapped := by
    rcases before with at_ | at_
    · rw [at_]
      decide
    · rw [at_]
      decide
  have none : s.cleared ++ s.toWrite = [] := by
    rw [(ordered.idle outside.1 outside.2).1, (ordered.idle outside.1 outside.2).2]
    rfl
  unfold State.swap
  dsimp only
  rw [none]
  by_cases empty : s.logger.fullBuffers = []
  · obtain ⟨pooled, current, full, _, accepted⟩ :=
      updateCurBuffer_spec s.logger ordered.pooled
    have waits := updateCurBuffer_waiting s.logger ordered.pooled
    rw [if_pos empty]
    rw [empty, List.nil_append] at full
    refine ⟨⟨⟨pooled.current, by simp, pooled.empties⟩, pooled.fulls, by simp, fun _ => rfl,
      fun unswapped => absurd rfl unswapped, fun _ => ?_⟩, ?_, accepted, rfl, waits, fun _ => full,
      fun some => absurd empty some⟩
    · simp [full]
    · simp [full]
  · rw [if_neg empty]
    exact ⟨⟨⟨ordered.pooled.current, by simp, ordered.pooled.empties⟩, ordered.pooled.fulls,
      by simp, fun _ => rfl, fun unswapped => absurd rfl unswapped, fun _ => empty⟩, empty, rfl,
      rfl, rfl, fun none => absurd none empty, fun _ => rfl⟩

/-- Within the round of writes. -/
theorem Orderly.writing {s : State} (ordered : Orderly s) (toWrite cleared : List FixedBuffer)
    (dropped : List Line) (logFile : List Record)
    (sizes : ∀ b ∈ toWrite, b.capacity = blockSize)
    (clears : ∀ b ∈ cleared, b = FixedBuffer.create blockSize) :
    Orderly { s with
      background := .writing, toWrite := toWrite, cleared := cleared, dropped := dropped,
      logFile := logFile } :=
  ⟨ordered.pooled, sizes, clears, fun outside => absurd rfl outside,
    fun _ outside => absurd rfl outside, fun impossible => by cases impossible⟩

/-- A buffer is written, cleared and kept for the logger. -/
theorem Orderly.write {s : State} (ordered : Orderly s) (at_ : s.background = .writing)
    (first : FixedBuffer) (rest : List FixedBuffer) (batch : s.toWrite = first :: rest) :
    Orderly { s with
      toWrite := rest
      cleared := s.cleared ++ [first.clear]
      logFile := s.logFile ++ [.buffer first.lines] } := by
  have sizes := ordered.sizes
  rw [batch] at sizes
  rw [at_]
  apply ordered.writing
  · intro b member
    exact sizes b (List.mem_cons_of_mem first member)
  · intro b member
    rcases List.mem_append.mp member with old | new
    · exact ordered.clears b old
    · rw [List.mem_singleton.mp new, FixedBuffer.clear, sizes first List.mem_cons_self]

theorem next_orderly (s : State) (label : Label) (ordered : Orderly s)
    (enabled : Enabled s label) : ∃ t, next s label = some t ∧ Orderly t := by
  cases label with
  | append now logline len level =>
      refine ⟨_, rfl, ?_, ordered.sizes, ordered.clears, ordered.uncleared, ordered.unswapped,
        ordered.loaded⟩
      exact append_pooled s.logger now logline len level ordered.pooled
  | stop =>
      exact ⟨_, rfl, ordered.pooled, ordered.sizes, ordered.clears, ordered.uncleared,
        ordered.unswapped, ordered.loaded⟩
  | loopTest =>
      have at_ : s.background = .loopTest := enabled
      have outside : s.background ≠ .writing := by rw [at_]; decide
      have outside' : s.background ≠ .swapped := by rw [at_]; decide
      obtain ⟨uncleared, unswapped⟩ := ordered.idle outside outside'
      have none : s.cleared ++ s.toWrite = [] := by rw [uncleared, unswapped]; rfl
      simp only [next, none, ↓reduceIte]
      split
      · exact ⟨_, rfl, ordered.move .exited outside outside' (by decide)⟩
      · exact ⟨_, rfl, ordered.move .locking outside outside' (by decide)⟩
  | lock =>
      have at_ : s.background = .locking := enabled
      simp only [next]
      split
      · exact ⟨_, rfl,
          ordered.move .waiting (by rw [at_]; decide) (by rw [at_]; decide) (by decide)⟩
      · exact ⟨_, rfl, (swap_spec s ordered (Or.inl at_)).1⟩
  | wake => exact ⟨_, rfl, (swap_spec s ordered (Or.inr enabled)).1⟩
  | overload now stack =>
      have at_ : s.background = .swapped := enabled
      have some : s.cleared ++ s.toWrite ≠ [] := by
        intro none
        exact ordered.loaded at_ (List.append_eq_nil_iff.mp none).2
      simp only [next, some, ne_eq, not_false_eq_true, ↓reduceIte]
      split
      · refine ⟨_, rfl, ordered.writing _ _ _ _ ?_ ordered.clears⟩
        intro b member
        exact ordered.sizes b (List.mem_of_mem_eraseIdx member)
      · exact ⟨_, rfl, ordered.writing _ _ s.dropped s.logFile ordered.sizes ordered.clears⟩
  | write =>
      obtain ⟨at_, some⟩ := enabled
      cases batch : s.toWrite with
      | nil => exact absurd batch some
      | cons first rest =>
          simp only [next, batch]
          exact ⟨_, rfl, ordered.write at_ first rest batch⟩
  | giveBack =>
      obtain ⟨at_, none⟩ := enabled
      refine ⟨_, rfl, ⟨ordered.pooled.current, ordered.pooled.fulls, ?_⟩, ordered.sizes, ?_,
        fun _ => rfl, fun _ _ => none, fun impossible => by cases impossible⟩
      · intro b member
        rcases List.mem_append.mp member with new | old
        · exact ordered.clears b (List.mem_reverse.mp new)
        · exact ordered.pooled.empties b old
      · intro b member
        cases member

theorem orderly_preserves : machine.Preserves Orderly := by
  intro s label t ordered enabled moved
  obtain ⟨u, stepped, kept⟩ := next_orderly s label ordered enabled
  obtain rfl : u = t := Option.some.inj (stepped.symm.trans moved)
  exact kept

/-- The lines on their way: written, to be written, and waiting. -/
def State.stream (s : State) : List Line :=
  s.logFile.flatMap Record.lines ++ s.toWrite.flatMap FixedBuffer.lines ++ s.logger.waiting

/-- As long as no buffer has been dropped: every line is in its place, and nothing
but lines has been written. -/
structure Intact (s : State) : Prop where
  ordered : Orderly s
  lines : s.stream = s.logger.accepted
  plain : s.logFile.flatMap Record.bytes = linesBytes (s.logFile.flatMap Record.lines)

theorem started_intact : Intact started := ⟨started_orderly, rfl, rfl⟩

theorem swap_intact (s : State) (intact : Intact s)
    (before : s.background = .locking ∨ s.background = .waiting) : Intact s.swap := by
  obtain ⟨ordered, _, accepted, none, moved, _⟩ := swap_spec s intact.ordered before
  have outside : s.background ≠ .writing ∧ s.background ≠ .swapped := by
    rcases before with at_ | at_
    · rw [at_]
      decide
    · rw [at_]
      decide
  have idle := (intact.ordered.idle outside.1 outside.2).2
  refine ⟨ordered, ?_, intact.plain⟩
  have lines := intact.lines
  rw [State.stream, idle, List.flatMap_nil, List.append_nil] at lines
  rw [accepted, ← lines, ← moved, State.stream, waiting, none, List.flatMap_nil, List.nil_append,
    List.append_assoc]
  rfl

theorem next_intact (s t : State) (label : Label) (intact : Intact s) (enabled : Enabled s label)
    (bearable : Bearable s label) (moved : next s label = some t) : Intact t := by
  have ordered := orderly_preserves s label t intact.ordered enabled moved
  have lines := intact.lines
  have plain := intact.plain
  cases label with
  | append now logline len level =>
      cases moved
      obtain ⟨new, waits, takes⟩ :=
        append_accepted s.logger now logline len level intact.ordered.pooled
      refine ⟨ordered, ?_, plain⟩
      simp only [State.stream, waits, takes, ← lines, List.append_assoc]
  | stop =>
      cases moved
      exact ⟨ordered, lines, plain⟩
  | loopTest =>
      simp only [next] at moved
      split at moved
      · cases moved
        exact ⟨ordered, lines, plain⟩
      · split at moved
        · cases moved
          exact ⟨ordered, lines, plain⟩
        · cases moved
  | lock =>
      simp only [next] at moved
      split at moved
      · cases moved
        exact ⟨ordered, lines, plain⟩
      · cases moved
        exact swap_intact s intact (Or.inl enabled)
  | wake =>
      cases moved
      exact swap_intact s intact (Or.inr enabled)
  | overload now stack =>
      have few : ¬ maxBufferCounts - 1 < s.toWrite.length := Nat.not_lt.mpr bearable
      simp only [next, few, ↓reduceIte] at moved
      split at moved
      · cases moved
        exact ⟨ordered, lines, plain⟩
      · cases moved
  | write =>
      cases batch : s.toWrite with
      | nil => exact absurd batch enabled.2
      | cons first rest =>
          simp only [next, batch, Option.some.injEq] at moved
          subst moved
          refine ⟨ordered, ?_, ?_⟩
          · rw [← lines]
            simp only [State.stream, batch, List.flatMap_append, List.flatMap_cons,
              List.flatMap_nil, Record.lines, List.append_nil, List.append_assoc]
          · simp only [List.flatMap_append, plain, List.flatMap_cons, List.flatMap_nil,
              Record.bytes, Record.lines, List.append_nil, linesBytes_append]
  | giveBack =>
      cases moved
      exact ⟨ordered, lines, plain⟩

theorem intact_preserves : (machine.restrict Bearable).Preserves Intact := by
  intro s label t intact enabled moved
  exact next_intact s t label intact enabled.1 enabled.2 moved

/-- In every run without overload: the bytes passed to LogFile, those of the buffers
still to be written, of the full buffers and of the current one make up the accepted
lines; the empty buffers are empty; and no assertion on buffersToWrite fails. -/
theorem logPipeline_intact (labels : List Label) (s : State)
    (run : (machine.restrict Bearable).Run started labels s) :
    s.logFile.flatMap Record.bytes ++ s.toWrite.flatMap FixedBuffer.data ++
        s.logger.fullBuffers.flatMap FixedBuffer.data ++ s.logger.currentBuffer.data =
      linesBytes s.logger.accepted ∧
    (∀ b ∈ s.logger.emptyBuffers, b.size = 0) ∧
    ∀ label, machine.enabled s label → ∃ t, machine.step s label = some t := by
  have intact := run.invariant intact_preserves started_intact
  refine ⟨?_, ?_, ?_⟩
  · rw [← intact.lines, State.stream, waiting, intact.plain, FixedBuffer.flatMap_data,
      FixedBuffer.flatMap_data]
    simp only [linesBytes_append, List.append_assoc]
    rfl
  · intro b member
    rw [intact.ordered.pooled.empties b member]
    rfl
  · intro label enabled
    obtain ⟨t, moved, _⟩ := next_orderly s label intact.ordered enabled
    exact ⟨t, moved⟩

instance (s : State) : (label : Label) → Decidable (machine.enabled s label)
  | .append _ _ _ _ => inferInstanceAs (Decidable True)
  | .stop => inferInstanceAs (Decidable (s.stop = false))
  | .loopTest => inferInstanceAs (Decidable (s.background = .loopTest))
  | .lock => inferInstanceAs (Decidable (s.background = .locking))
  | .wake => inferInstanceAs (Decidable (s.background = .waiting))
  | .overload _ _ => inferInstanceAs (Decidable (s.background = .swapped))
  | .write => inferInstanceAs (Decidable (s.background = .writing ∧ s.toWrite ≠ []))
  | .giveBack => inferInstanceAs (Decidable (s.background = .writing ∧ s.toWrite = []))

instance (s : State) : (label : Label) → Decidable (Bearable s label)
  | .overload _ _ => inferInstanceAs (Decidable (s.toWrite.length ≤ maxBufferCounts - 1))
  | .append _ _ _ _ | .stop | .loopTest | .lock | .wake | .write | .giveBack =>
      inferInstanceAs (Decidable True)

instance (s : State) (label : Label) : Decidable ((machine.restrict Bearable).enabled s label) :=
  inferInstanceAs (Decidable (machine.enabled s label ∧ Bearable s label))

/-- An append, a whole round of the background thread and another append. -/
def round : List Label :=
  [.append 0 (ascii "one") 3 .INFO, .loopTest, .lock, .wake, .overload 0 [], .write, .giveBack,
    .append 0 (ascii "two") 3 .INFO]

theorem logPipeline_round :
    ∃ s, (machine.restrict Bearable).Run started round s ∧ s.logger.accepted.length = 2 ∧
      s.logFile.flatMap Record.bytes ++ s.toWrite.flatMap FixedBuffer.data ++
          s.logger.fullBuffers.flatMap FixedBuffer.data ++ s.logger.currentBuffer.data =
        linesBytes s.logger.accepted := by
  obtain ⟨s, run, two⟩ := (machine.restrict Bearable).exists_run_of_play started round
    (fun s => s.logger.accepted.length) 2 (by decide +kernel)
  exact ⟨s, run, two, (logPipeline_intact round s run).1⟩

end Tundra.LogPipeline
