import Mathlib.Data.List.Basic
import Tundra.Base.LogStorage
import Tundra.Util.TimeFormat

set_option autoImplicit false

/- The log files, read back line by line: what they say is what the append calls were
given, as far as it has been written. -/
namespace Tundra.LogReader

open Library AsyncLogger LogPipeline

/-- What a line of the log says. -/
structure Entry where
  time : TimeStamp
  level : Level
  message : Bytes
deriving DecidableEq

def levels : List Level := [.TRACE, .DEBUG, .INFO, .WARN, .ERROR, .FATAL]

def readLevel (name : Bytes) : Option Level := levels.find? fun level => level.name = name

/-- The time, the name of the level and the message, with a space between them. -/
def readEntry (line : Bytes) : Option Entry :=
  (TimeStamp.readTimeStamp line).bind fun (time, text) =>
    (Reader.symbol 32 text).bind fun (_, text) =>
      (Reader.upTo 32 text).bind fun (name, message) =>
        (readLevel name).map fun level => ⟨time, level, message⟩

def readLine : Reader UInt8 Entry := fun text =>
  (Reader.upTo 10 text).bind fun (line, rest) =>
    (readEntry line).map fun entry => (entry, rest)

/-- Lines until nothing is left. -/
def readLog (text : Bytes) : Option (List Entry) := Reader.many readLine text.length text

/-- What a call of append wants to be read. -/
def entry (call : LogAppend.Call) : Entry := ⟨call.now, call.level, call.logline⟩

/-- The message is one line of text, and the clock is in the first ten thousand years. -/
structure Plain (call : LogAppend.Call) : Prop where
  noNul : 0 ∉ call.logline
  noNewline : 10 ∉ call.logline
  time : TimeStamp.Representable call.now

theorem readLevel_name (level : Level) : readLevel level.name = some level := by
  cases level <;> decide

theorem name_visible (level : Level) : ∀ c ∈ level.name, 32 < c := by
  cases level <;> decide +kernel

/-- The line without its newline. -/
def front (call : LogAppend.Call) : Bytes :=
  call.now.toFormatString ++ 32 :: (call.level.name ++ 32 :: call.logline)

theorem text_eq (call : LogAppend.Call) (plain : Plain call) : call.text = front call ++ [10] := by
  have whole : call.logline.takeWhile (· ≠ 0) = call.logline := by
    rw [List.takeWhile_eq_self_iff]
    intro c member
    rw [decide_eq_true_eq]
    rintro rfl
    exact plain.noNul member
  have space : ascii " " = [32] := rfl
  have newline : ascii "\n" = [10] := rfl
  rw [LogAppend.Call.text, trueLogLine, whole, space, newline, front]
  simp only [List.append_assoc, List.cons_append, List.nil_append]

theorem front_noNewline (call : LogAppend.Call) (plain : Plain call) : 10 ∉ front call := by
  intro member
  simp only [front, List.mem_append, List.mem_cons] at member
  rcases member with time | space | name | space | message
  · exact absurd (TimeStamp.toFormatString_visible call.now plain.time 10 time) (by decide)
  · exact absurd space (by decide)
  · exact absurd (name_visible call.level 10 name) (by decide)
  · exact absurd space (by decide)
  · exact plain.noNewline message

theorem readEntry_front (call : LogAppend.Call) (plain : Plain call) :
    readEntry (front call) = some (entry call) := by
  have noSpace : 32 ∉ call.level.name := by
    intro member
    exact absurd (name_visible call.level 32 member) (by decide)
  rw [readEntry, front, TimeStamp.readTimeStamp_append _ plain.time, Option.bind_some]
  dsimp only
  rw [Reader.symbol_cons, Option.bind_some]
  dsimp only
  rw [Reader.upTo_append _ _ _ noSpace, Option.bind_some]
  dsimp only
  rw [readLevel_name]
  rfl

theorem readLine_text (call : LogAppend.Call) (plain : Plain call) (rest : Bytes) :
    readLine (call.text ++ rest) = some (entry call, rest) := by
  rw [readLine, text_eq call plain, List.append_assoc, List.singleton_append,
    Reader.upTo_append _ _ _ (front_noNewline call plain), Option.bind_some]
  dsimp only
  rw [readEntry_front call plain]
  rfl

/-- Lines that are written one behind the other are read one after the other. -/
theorem readLog_texts (calls : List LogAppend.Call) (plain : ∀ call ∈ calls, Plain call) :
    readLog (calls.flatMap LogAppend.Call.text) = some (calls.map entry) := by
  have visible : ∀ call ∈ calls, call.text ≠ [] := by
    intro call member
    rw [text_eq call (plain call member)]
    simp
  apply Reader.many_flatMap readLine LogAppend.Call.text entry calls
  · exact Reader.length_le_flatMap LogAppend.Call.text calls visible
  · exact visible
  · intro before call behind split
    exact readLine_text call (plain call (by rw [split]; simp)) _

/-- The append call of a step. -/
def callOf : LogPipeline.Label → Option LogAppend.Call
  | .append now logline len level => some ⟨now, logline, len, level⟩
  | .stop | .loopTest | .lock | .wake | .overload _ _ | .write | .giveBack => none

/-- The append calls of a run, in the order of the lock. -/
def calls (labels : List LogStorage.Label) : List LogAppend.Call :=
  labels.filterMap fun label => callOf label.act

/-- Every accepted line is that of the call with its number, and the numbers grow. -/
structure Numbered (l : AsyncLogger) (made : List LogAppend.Call) : Prop where
  count : l.appends = made.length
  lines : ∀ line ∈ l.accepted, ∃ call, made[line.number]? = some call ∧ line.text = call.text
  order : (l.accepted.map Line.number).Pairwise (· < ·)

theorem Numbered.known {l : AsyncLogger} {made : List LogAppend.Call} (numbered : Numbered l made)
    (line : Line) (member : line ∈ l.accepted) : line.number < made.length := by
  obtain ⟨call, found, _⟩ := numbered.lines line member
  exact (List.getElem?_eq_some_iff.mp found).1

/-- A line is put in or refused, and its call is counted. -/
theorem append_eq_put (l : AsyncLogger) (call : LogAppend.Call) (pooled : Pooled l) :
    (l.append call.now call.logline call.len call.level).appends = l.appends + 1 ∧
      ((l.append call.now call.logline call.len call.level).accepted = l.accepted ∨
        (l.append call.now call.logline call.len call.level).accepted =
          l.accepted ++ [⟨l.appends, call.text⟩]) := by
  have put (m : AsyncLogger) : (m.put call.text).appends = m.appends + 1 ∧
      ((m.put call.text).accepted = m.accepted ∨
        (m.put call.text).accepted = m.accepted ++ [⟨m.appends, call.text⟩]) := by
    refine ⟨rfl, ?_⟩
    rw [AsyncLogger.put]
    dsimp only
    split
    · exact Or.inr rfl
    · exact Or.inl (List.append_nil _)
  rw [append_eq]
  split
  · obtain ⟨_, _, _, appends, accepted⟩ := updateCurBuffer_spec l pooled
    have rotated := put l.updateCurBuffer
    rw [appends, accepted] at rotated
    exact rotated
  · exact put l

theorem Numbered.append {l : AsyncLogger} {made : List LogAppend.Call} (numbered : Numbered l made)
    (call : LogAppend.Call) (pooled : Pooled l) :
    Numbered (l.append call.now call.logline call.len call.level) (made ++ [call]) := by
  obtain ⟨appends, accepted⟩ := append_eq_put l call pooled
  have earlier : ∀ line ∈ l.accepted, ∃ old, (made ++ [call])[line.number]? = some old ∧
      line.text = old.text := by
    intro line member
    obtain ⟨old, found, text⟩ := numbered.lines line member
    exact ⟨old, (List.getElem?_append_left (numbered.known line member)).trans found, text⟩
  have count : (l.append call.now call.logline call.len call.level).appends =
      (made ++ [call]).length := by
    rw [appends, numbered.count, List.length_append, List.length_singleton]
  rcases accepted with refused | taken
  · refine ⟨count, ?_, ?_⟩
    · rw [refused]
      exact earlier
    · rw [refused]
      exact numbered.order
  · refine ⟨count, ?_, ?_⟩
    · rw [taken]
      intro line member
      rcases List.mem_append.mp member with old | new
      · exact earlier line old
      · rw [List.mem_singleton.mp new, numbered.count]
        exact ⟨call, List.getElem?_concat_length, rfl⟩
    · rw [taken, List.map_append, List.pairwise_append]
      refine ⟨numbered.order, List.pairwise_singleton _ _, ?_⟩
      intro a old b new
      obtain ⟨line, member, rfl⟩ := List.mem_map.mp old
      rw [List.map_singleton, List.mem_singleton] at new
      rw [new, numbered.count]
      exact numbered.known line member

/-- No other step touches what has been accepted. -/
theorem next_appends (s t : LogPipeline.State) (label : LogPipeline.Label) (ordered : Orderly s)
    (silent : callOf label = none) (moved : LogPipeline.next s label = some t) :
    t.logger.appends = s.logger.appends ∧ t.logger.accepted = s.logger.accepted := by
  have swapped : s.swap.logger.appends = s.logger.appends ∧
      s.swap.logger.accepted = s.logger.accepted := by
    unfold LogPipeline.State.swap
    dsimp only
    split
    · exact (updateCurBuffer_spec s.logger ordered.pooled).2.2.2
    · exact ⟨rfl, rfl⟩
  cases label with
  | append => cases silent
  | stop | giveBack =>
      cases moved
      exact ⟨rfl, rfl⟩
  | wake =>
      cases moved
      exact swapped
  | loopTest =>
      simp only [LogPipeline.next] at moved
      split at moved
      · cases moved
        exact ⟨rfl, rfl⟩
      · split at moved
        · cases moved
          exact ⟨rfl, rfl⟩
        · cases moved
  | lock =>
      simp only [LogPipeline.next] at moved
      split at moved
      · cases moved
        exact ⟨rfl, rfl⟩
      · cases moved
        exact swapped
  | overload now stack =>
      simp only [LogPipeline.next] at moved
      split at moved
      · split at moved
        · cases moved
          exact ⟨rfl, rfl⟩
        · cases moved
          exact ⟨rfl, rfl⟩
      · cases moved
  | write =>
      simp only [LogPipeline.next] at moved
      split at moved
      · cases moved
      · cases moved
        exact ⟨rfl, rfl⟩

section

variable (localtime : Nat → TimeStamp.Tm)

variable {rollSize : RollSize} {file : LogFile.State}

theorem pipeline_moved {s t : LogStorage.State} {label : LogStorage.Label}
    (moved : (LogStorage.bearable localtime).step s label = some t) :
    LogPipeline.next s.pipeline label.act = some t.pipeline := by
  obtain ⟨pipeline, stepped, rest⟩ := Option.bind_eq_some_iff.mp moved
  obtain ⟨_, _, rfl⟩ := Option.map_eq_some_iff.mp rest
  exact stepped

theorem intact_preserves :
    (LogStorage.bearable localtime).Preserves fun s => LogPipeline.Intact s.pipeline := by
  intro s label t intact enabled moved
  exact next_intact s.pipeline t.pipeline label.act intact enabled.1.1 enabled.2
    (pipeline_moved localtime moved)

theorem stored_preserves (large : blockSize ≤ rollSize.bytes) :
    (LogStorage.bearable localtime).Preserves (LogStorage.Invariant rollSize) := by
  intro s label t inv enabled moved
  exact LogStorage.invariant_preserves localtime large s label t inv enabled.1 moved

theorem run_numbered (labels : List LogStorage.Label) (s : LogStorage.State)
    (run : (LogStorage.bearable localtime).Run (LogStorage.started file) labels s) :
    Numbered s.pipeline.logger (calls labels) := by
  induction run with
  | nil =>
      refine ⟨rfl, ?_, List.Pairwise.nil⟩
      intro line member
      cases member
  | @snoc labels t u label front allowed moved ih =>
      have start : LogPipeline.Intact (LogStorage.started file).pipeline := started_intact
      have intact := front.invariant (intact_preserves localtime) start
      have stepped := pipeline_moved localtime moved
      rw [calls, List.filterMap_append]
      cases made : callOf label.act with
      | none =>
          obtain ⟨appends, accepted⟩ :=
            next_appends t.pipeline u.pipeline label.act intact.ordered made stepped
          have same : List.filterMap (fun label => callOf label.act) [label] = [] := by
            simp [made]
          rw [same, List.append_nil]
          exact ⟨by rw [appends]; exact ih.count, by rw [accepted]; exact ih.lines,
            by rw [accepted]; exact ih.order⟩
      | some call =>
          have one : List.filterMap (fun label => callOf label.act) [label] = [call] := by
            simp [made]
          rw [one]
          have added := ih.append call intact.ordered.pooled
          obtain ⟨act, clock⟩ := label
          cases act with
          | append now logline len level =>
              cases made
              have logger : u.pipeline.logger = t.pipeline.logger.append now logline len level :=
                congrArg LogPipeline.State.logger (Option.some.inj stepped).symm
              rw [logger]
              exact added
          | stop | loopTest | lock | wake | overload | write | giveBack => cases made

/-- The calls that some lines come from. -/
theorem exists_calls (made : List LogAppend.Call) (lines : List Line)
    (known : ∀ line ∈ lines, ∃ call, made[line.number]? = some call ∧ line.text = call.text) :
    ∃ picked : List LogAppend.Call, (∀ call ∈ picked, call ∈ made) ∧
      linesBytes lines = picked.flatMap LogAppend.Call.text ∧
      picked.map some = lines.map fun line => made[line.number]? := by
  induction lines with
  | nil => exact ⟨[], List.forall_mem_nil _, rfl, rfl⟩
  | cons line rest ih =>
      obtain ⟨⟨call, found, text⟩, others⟩ := List.forall_mem_cons.mp known
      obtain ⟨picked, members, bytes, same⟩ := ih others
      refine ⟨call :: picked, ?_, ?_, ?_⟩
      · exact List.forall_mem_cons.mpr ⟨List.mem_of_getElem? found, members⟩
      · rw [List.flatMap_cons, ← text, ← bytes]
        rfl
      · rw [List.map_cons, List.map_cons, found, same]

/-- In every run without overload whose files get names of their own, with a roll size of
a block or more and messages that are lines of text: the files, read line by line, give the
time, the level and the message of the calls whose lines have been written, in their order.
The other accepted lines are still in the buffers. -/
theorem log_read_back (disk : Disk) (basename : Bytes) (first : Nat)
    (made : LogFile.create localtime disk basename rollSize first = some file)
    (large : blockSize ≤ rollSize.bytes) (labels : List LogStorage.Label) (s : LogStorage.State)
    (run : (LogStorage.bearable localtime).Run (LogStorage.started file) labels s)
    (plain : ∀ call ∈ calls labels, Plain call) :
    ∃ entries, readLog s.file.destroy.onDisk = some entries ∧
      entries.map some = (s.pipeline.logFile.flatMap Record.lines).map
        (fun line => ((calls labels)[line.number]?).map entry) ∧
      s.pipeline.logFile.flatMap Record.lines ++
          (s.pipeline.toWrite ++ s.pipeline.logger.fullBuffers ++
            [s.pipeline.logger.currentBuffer]).flatMap FixedBuffer.lines =
        s.pipeline.logger.accepted ∧
      (s.pipeline.logger.accepted.map Line.number).Pairwise (· < ·) := by
  have numbered := run_numbered localtime labels s run
  have start : LogPipeline.Intact (LogStorage.started file).pipeline := started_intact
  have intact := run.invariant (intact_preserves localtime) start
  have stored := run.invariant (stored_preserves localtime large)
    (LogStorage.started_invariant localtime disk basename rollSize first file made)
  have lines := intact.lines
  have written : ∀ line ∈ s.pipeline.logFile.flatMap Record.lines,
      ∃ call, (calls labels)[line.number]? = some call ∧ line.text = call.text := by
    intro line member
    apply numbered.lines
    rw [← lines]
    exact List.mem_append_left _ (List.mem_append_left _ member)
  obtain ⟨picked, members, bytes, same⟩ := exists_calls (calls labels) _ written
  refine ⟨picked.map entry, ?_, ?_, ?_, numbered.order⟩
  · rw [stored.onDisk, LogStorage.written, intact.plain, bytes]
    exact readLog_texts picked fun call member => plain call (members call member)
  · have options := congrArg (List.map (Option.map entry)) same
    rw [List.map_map, List.map_map] at options
    rw [List.map_map]
    exact options
  · rw [← lines, LogPipeline.State.stream, waiting]
    simp only [List.flatMap_append, List.flatMap_singleton, List.append_assoc]

end

/-- What the two files say; the short message is not among it. -/
theorem log_read_back_rolled :
    ∃ s, (LogStorage.bearable TimeStamp.gmtime).Run (LogStorage.started LogStorage.narrow)
        LogStorage.rolled s ∧
      readLog s.file.destroy.onDisk = some [entry (LogAppend.letters (blockSize - 33)),
        entry (LogAppend.letters (blockSize - 33))] ∧
      (calls LogStorage.rolled).length = 3 := by
  obtain ⟨s, run, _, records⟩ := LogStorage.rolled_run
  have plainly (n : Nat) : Plain (LogAppend.letters n) := by
    have epoch : TimeStamp.Representable 0 := ⟨by decide, by decide⟩
    refine ⟨LogAppend.letters_noNul n, ?_, epoch⟩
    intro member
    exact absurd (List.eq_of_mem_replicate member) (by decide)
  have made : calls LogStorage.rolled = [LogAppend.letters (blockSize - 33),
      LogAppend.letters (blockSize - 33), LogAppend.letters 5] := rfl
  have plain : ∀ call ∈ calls LogStorage.rolled, Plain call := by
    intro call member
    rw [made] at member
    simp only [List.mem_cons, List.not_mem_nil, or_false] at member
    rcases member with rfl | rfl | rfl
    · exact plainly _
    · exact plainly _
    · exact plainly _
  obtain ⟨entries, found, same, _⟩ := log_read_back TimeStamp.gmtime _ _ 0
    LogStorage.narrow_made le_rfl _ s run plain
  rw [records, made] at same
  obtain ⟨first, others, rfl, text, rest⟩ := List.map_eq_cons_iff.mp same
  obtain ⟨second, rfl, text'⟩ := List.map_eq_singleton_iff.mp rest
  rw [Option.some.inj text, Option.some.inj text'] at found
  exact ⟨s, run, found, by rw [made]; rfl⟩

end Tundra.LogReader
