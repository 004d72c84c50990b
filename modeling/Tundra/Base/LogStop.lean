import Mathlib.Data.List.Basic
import Tundra.Base.LogPipeline

set_option autoImplicit false

/- What AsyncLogger::stop leaves unwritten. The background thread looks at stop_ only
in its loop test, and leaves without another round once it is set. -/
namespace Tundra.LogStop

open Library AsyncLogger LogPipeline

/-- The background thread is between its loop test and its swap. -/
def BeforeSwap (b : Background) : Prop := b = .locking ∨ b = .waiting

instance (b : Background) : Decidable (BeforeSwap b) :=
  inferInstanceAs (Decidable (b = .locking ∨ b = .waiting))

/-- What waits will still be swapped out: a swap is to come, and takes either the
full buffers or, if there are none, the current one; or nothing waits at all. -/
def Flushes (s : State) : Prop :=
  if BeforeSwap s.background then
    s.logger.fullBuffers = [] ∨ s.logger.currentBuffer.lines = []
  else s.logger.waiting = []

/-- The condition on a run: stop() is called where the rest of the round flushes. -/
def Timely (s : State) : Label → Prop
  | .stop => Flushes s
  | _ => True

/-- The line has been passed to LogFile::append. -/
def Written (s : State) (line : Line) : Prop := line ∈ s.logFile.flatMap Record.lines

/-- The line has been written or dropped, or is in a buffer of the round under way. -/
def Handled (s : State) (line : Line) : Prop :=
  Written s line ∨ line ∈ s.dropped ∨ line ∈ s.toWrite.flatMap FixedBuffer.lines

/-- The next swap takes the line. -/
def Swapped (l : AsyncLogger) (line : Line) : Prop :=
  line ∈ l.fullBuffers.flatMap FixedBuffer.lines ∨
    (l.fullBuffers = [] ∧ line ∈ l.currentBuffer.lines)

/-- The rest of the round sees to the line. -/
def Safe (s : State) (line : Line) : Prop :=
  Handled s line ∨ (BeforeSwap s.background ∧ Swapped s.logger line)

structure Tracked (s : State) : Prop where
  ordered : Orderly s
  kept : ∀ line ∈ s.logger.accepted, Handled s line ∨ line ∈ s.logger.waiting
  safe : s.stop = true → ∀ line ∈ s.before, Safe s line

theorem started_tracked : Tracked started := by
  refine ⟨started_orderly, ?_, ?_⟩
  · intro line member
    cases member
  · intro stopped
    cases stopped

/-- A rotation takes the current buffer's lines to the full ones, and other appends
leave both where they are. -/
theorem append_swapped (l : AsyncLogger) (now : TimeStamp) (logline : Bytes) (len : Nat)
    (level : Level) (line : Line) (pooled : Pooled l) (swapped : Swapped l line) :
    Swapped (l.append now logline len level) line := by
  rcases append_keeps l now logline len level pooled with ⟨full, new, current⟩ | full
  · rcases swapped with inFull | ⟨none, inCurrent⟩
    · left
      rw [full]
      exact inFull
    · right
      rw [full, current]
      exact ⟨none, List.mem_append_left new inCurrent⟩
  · left
    rw [full, List.flatMap_append, List.flatMap_singleton]
    rcases swapped with inFull | ⟨_, inCurrent⟩
    · exact List.mem_append_left _ inFull
    · exact List.mem_append_right _ inCurrent

/-- At a timely stop() everything accepted so far is safe. -/
theorem flushes_safe (s : State) (tracked : Tracked s) (timely : Flushes s) (line : Line)
    (member : line ∈ s.logger.accepted) : Safe s line := by
  rcases tracked.kept line member with handled | waits
  · exact Or.inl handled
  · unfold Flushes at timely
    split at timely
    · rename_i before
      refine Or.inr ⟨before, ?_⟩
      rcases List.mem_append.mp waits with inFull | inCurrent
      · exact Or.inl inFull
      · rcases timely with none | empty
        · exact Or.inr ⟨none, inCurrent⟩
        · rw [empty] at inCurrent
          cases inCurrent
    · rw [timely] at waits
      cases waits

/-- A step of the background thread, by what it does to the lines: those handled
stay so, and those waiting are handled or still wait. -/
theorem background_tracked (s t : State) (tracked : Tracked s) (ordered : Orderly t)
    (same : t.logger.accepted = s.logger.accepted ∧ t.stop = s.stop ∧ t.before = s.before)
    (handled : ∀ line, Handled s line → Handled t line)
    (waits : ∀ line ∈ s.logger.waiting, Handled t line ∨ line ∈ t.logger.waiting)
    (swapped : ∀ line, BeforeSwap s.background → Swapped s.logger line → Safe t line) :
    Tracked t := by
  refine ⟨ordered, ?_, ?_⟩
  · intro line member
    rw [same.1] at member
    rcases tracked.kept line member with done | waiting
    · exact Or.inl (handled line done)
    · exact waits line waiting
  · intro stopped line member
    rw [same.2.1] at stopped
    rw [same.2.2] at member
    rcases tracked.safe stopped line member with done | ⟨before, next⟩
    · exact Or.inl (handled line done)
    · exact swapped line before next

theorem swap_tracked (s : State) (tracked : Tracked s) (before : BeforeSwap s.background) :
    Tracked s.swap := by
  obtain ⟨ordered, _, accepted, none, moved, rotated, swapped⟩ :=
    swap_spec s tracked.ordered before
  have idle : s.toWrite = [] := by
    rcases before with at_ | at_
    · exact (tracked.ordered.idle (by rw [at_]; decide) (by rw [at_]; decide)).2
    · exact (tracked.ordered.idle (by rw [at_]; decide) (by rw [at_]; decide)).2
  have loads (line : Line) (taken : line ∈ s.swap.toWrite.flatMap FixedBuffer.lines) :
      Handled s.swap line := Or.inr (Or.inr taken)
  apply background_tracked s s.swap tracked ordered ⟨accepted, rfl, rfl⟩
  · intro line handled
    rcases handled with done | gone | next
    · exact Or.inl done
    · exact Or.inr (Or.inl gone)
    · rw [idle] at next
      cases next
  · intro line waits
    rw [← moved] at waits
    rcases List.mem_append.mp waits with taken | left
    · exact Or.inl (loads line taken)
    · right
      rw [waiting, none]
      exact left
  · intro line _ next
    refine Or.inl (loads line ?_)
    rcases next with inFull | ⟨empty, inCurrent⟩
    · have some : s.logger.fullBuffers ≠ [] := by
        intro empty
        rw [empty] at inFull
        cases inFull
      rw [swapped some]
      exact inFull
    · rw [rotated empty, List.flatMap_singleton]
      exact inCurrent

/-- An element stays in place when an index is removed, or is the removed one. -/
theorem mem_eraseIdx_or (buffers : List FixedBuffer) (i : Nat) (b : FixedBuffer)
    (member : b ∈ buffers) : b ∈ buffers.eraseIdx i ∨ buffers[i]? = some b := by
  induction buffers generalizing i with
  | nil => cases member
  | cons first rest ih =>
      cases i with
      | zero =>
          rcases List.mem_cons.mp member with rfl | later
          · exact Or.inr rfl
          · exact Or.inl later
      | succ i =>
          rcases List.mem_cons.mp member with rfl | later
          · exact Or.inl List.mem_cons_self
          · rcases ih i later with left | removed
            · exact Or.inl (List.mem_cons_of_mem first left)
            · exact Or.inr removed

theorem append_tracked (s : State) (now : TimeStamp) (logline : Bytes) (len : Nat) (level : Level)
    (tracked : Tracked s)
    (ordered : Orderly { s with logger := s.logger.append now logline len level }) :
    Tracked { s with logger := s.logger.append now logline len level } := by
  obtain ⟨new, waits, takes⟩ :=
    append_accepted s.logger now logline len level tracked.ordered.pooled
  refine ⟨ordered, ?_, ?_⟩
  · intro line member
    rw [takes] at member
    rw [waits]
    rcases List.mem_append.mp member with old | fresh
    · rcases tracked.kept line old with handled | waiting
      · exact Or.inl handled
      · exact Or.inr (List.mem_append_left new waiting)
    · exact Or.inr (List.mem_append_right _ fresh)
  · intro stopped line member
    rcases tracked.safe stopped line member with handled | ⟨before, next⟩
    · exact Or.inl handled
    · exact Or.inr ⟨before, append_swapped s.logger now logline len level line
        tracked.ordered.pooled next⟩

/-- A step behind the swap leaves the waiting lines alone. -/
theorem behind_tracked (s t : State) (tracked : Tracked s) (ordered : Orderly t)
    (same : t.logger.accepted = s.logger.accepted ∧ t.stop = s.stop ∧ t.before = s.before)
    (waits : t.logger.waiting = s.logger.waiting) (behind : ¬ BeforeSwap s.background)
    (handled : ∀ line, Handled s line → Handled t line) : Tracked t := by
  apply background_tracked s t tracked ordered same handled
  · intro line member
    rw [waits]
    exact Or.inr member
  · intro line before
    exact absurd before behind

/-- The lines of the buffer that the overload branch throws away count as dropped. -/
theorem overload_handled (s : State) (record : Record) (line : Line) (handled : Handled s line) :
    Handled { s with
      background := .writing
      toWrite := s.toWrite.eraseIdx (maxBufferCounts - 1)
      dropped := s.dropped ++ (s.toWrite[maxBufferCounts - 1]?).elim [] FixedBuffer.lines
      logFile := s.logFile ++ [record] } line := by
  rcases handled with done | gone | next
  · left
    rw [Written, List.flatMap_append]
    exact List.mem_append_left _ done
  · exact Or.inr (Or.inl (List.mem_append_left _ gone))
  · obtain ⟨b, member, inside⟩ := List.mem_flatMap.mp next
    rcases mem_eraseIdx_or s.toWrite (maxBufferCounts - 1) b member with left | removed
    · exact Or.inr (Or.inr (List.mem_flatMap.mpr ⟨b, left, inside⟩))
    · refine Or.inr (Or.inl (List.mem_append_right _ ?_))
      rw [removed]
      exact inside

theorem write_handled (s : State) (first : FixedBuffer) (rest cleared : List FixedBuffer)
    (batch : s.toWrite = first :: rest) (line : Line) (handled : Handled s line) :
    Handled { s with
      toWrite := rest
      cleared := cleared
      logFile := s.logFile ++ [.buffer first.lines] } line := by
  rcases handled with done | gone | next
  · left
    rw [Written, List.flatMap_append]
    exact List.mem_append_left _ done
  · exact Or.inr (Or.inl gone)
  · rw [batch, List.flatMap_cons] at next
    rcases List.mem_append.mp next with now | later
    · left
      rw [Written, List.flatMap_append, List.flatMap_singleton]
      exact List.mem_append_right _ now
    · exact Or.inr (Or.inr later)

/-- Only the background thread's place changes. -/
theorem goto_tracked (s : State) (background : Background) (tracked : Tracked s)
    (ordered : Orderly { s with background := background })
    (stays : BeforeSwap s.background → BeforeSwap background) :
    Tracked { s with background := background } :=
  background_tracked s _ tracked ordered ⟨rfl, rfl, rfl⟩ (fun _ => id) (fun _ => Or.inr)
    fun _ before next => Or.inr ⟨stays before, next⟩

theorem next_tracked (s t : State) (label : Label) (tracked : Tracked s)
    (enabled : Enabled s label) (timely : Timely s label) (moved : next s label = some t) :
    Tracked t := by
  have ordered := orderly_preserves s label t tracked.ordered enabled moved
  cases label with
  | append now logline len level =>
      cases moved
      exact append_tracked s now logline len level tracked ordered
  | stop =>
      cases moved
      exact ⟨ordered, tracked.kept, fun _ line member => flushes_safe s tracked timely line member⟩
  | loopTest =>
      have outside : ¬ BeforeSwap s.background := by
        rw [show s.background = .loopTest from enabled]
        decide
      simp only [next] at moved
      split at moved
      · cases moved
        exact goto_tracked s .exited tracked ordered fun before => absurd before outside
      · split at moved
        · cases moved
          exact goto_tracked s .locking tracked ordered fun before => absurd before outside
        · cases moved
  | lock =>
      simp only [next] at moved
      split at moved
      · cases moved
        exact goto_tracked s .waiting tracked ordered fun _ => Or.inr rfl
      · cases moved
        exact swap_tracked s tracked (Or.inl enabled)
  | wake =>
      cases moved
      exact swap_tracked s tracked (Or.inr enabled)
  | overload now stack =>
      have behind : ¬ BeforeSwap s.background := by
        rw [show s.background = .swapped from enabled]
        decide
      simp only [next] at moved
      split at moved
      · split at moved
        · cases moved
          exact behind_tracked s _ tracked ordered ⟨rfl, rfl, rfl⟩ rfl behind
            (overload_handled s _)
        · cases moved
          exact goto_tracked s .writing tracked ordered fun before => absurd before behind
      · cases moved
  | write =>
      have behind : ¬ BeforeSwap s.background := by
        rw [enabled.1]
        decide
      cases batch : s.toWrite with
      | nil => exact absurd batch enabled.2
      | cons first rest =>
          simp only [next, batch, Option.some.injEq] at moved
          subst moved
          exact behind_tracked s _ tracked ordered ⟨rfl, rfl, rfl⟩ rfl behind
            (write_handled s first rest _ batch)
  | giveBack =>
      have behind : ¬ BeforeSwap s.background := by
        rw [enabled.1]
        decide
      cases moved
      exact behind_tracked s _ tracked ordered ⟨rfl, rfl, rfl⟩ rfl behind fun _ => id

theorem tracked_preserves : (machine.restrict Timely).Preserves Tracked := by
  intro s label t tracked enabled moved
  exact next_tracked s t label tracked enabled.1 enabled.2 moved

/-- In every run whose stop() is timely, once the background thread has left every
line accepted before stop() has been written or was dropped by the overload branch. -/
theorem logStop_flushed (labels : List Label) (s : State)
    (run : (machine.restrict Timely).Run started labels s) (stopped : s.stop = true)
    (left : s.background = .exited) :
    ∀ line ∈ s.before, line ∉ s.dropped → Written s line := by
  have tracked := run.invariant tracked_preserves started_tracked
  intro line member undropped
  rcases tracked.safe stopped line member with (done | gone | next) | ⟨before, _⟩
  · exact done
  · exact absurd gone undropped
  · have idle := (tracked.ordered.idle (by rw [left]; decide) (by rw [left]; decide)).2
    rw [idle] at next
    cases next
  · rw [left] at before
    exact absurd before (by decide)

instance (s : State) : (label : Label) → Decidable (Timely s label)
  | .stop => inferInstanceAs (Decidable (if BeforeSwap s.background then
      s.logger.fullBuffers = [] ∨ s.logger.currentBuffer.lines = [] else s.logger.waiting = []))
  | .append _ _ _ _ | .loopTest | .lock | .wake | .overload _ _ | .write | .giveBack =>
      inferInstanceAs (Decidable True)

instance (s : State) (label : Label) : Decidable ((machine.restrict Timely).enabled s label) :=
  inferInstanceAs (Decidable (machine.enabled s label ∧ Timely s label))

/-- stop() while the background thread waits for work. -/
def patient : List Label :=
  [.append 0 (ascii "bye") 3 .FATAL, .loopTest, .lock, .stop, .wake, .overload 0 [], .write,
    .giveBack, .loopTest]

theorem logStop_flushed_patient :
    ∃ s, (machine.restrict Timely).Run started patient s ∧ s.before.length = 1 ∧
      ∀ line ∈ s.before, line ∉ s.dropped → Written s line := by
  obtain ⟨s, run, seen⟩ := (machine.restrict Timely).exists_run_of_play started patient
    (fun s => (s.stop, s.background, s.before.length)) (true, .exited, 1) (by decide +kernel)
  simp only [Prod.mk.injEq] at seen
  obtain ⟨stopped, left, one⟩ := seen
  exact ⟨s, run, one, logStop_flushed patient s run stopped left⟩

/-- stop() just before the loop test: the line stays in the current buffer. -/
theorem logStop_unflushed :
    ∃ s, machine.Run started [.append 0 (ascii "bye") 3 .FATAL, .stop, .loopTest] s ∧
      s.stop = true ∧ s.background = .exited ∧ s.dropped = [] ∧
      ¬ ∀ line ∈ s.before, line ∉ s.dropped → Written s line := by
  obtain ⟨s, run, seen⟩ := machine.exists_run_of_play started
    [.append 0 (ascii "bye") 3 .FATAL, .stop, .loopTest]
    (fun s => (s.stop, s.background, s.dropped, s.logFile, s.before.length))
    (true, .exited, [], [], 1) (by decide +kernel)
  simp only [Prod.mk.injEq] at seen
  obtain ⟨stopped, left, undropped, unwritten, one⟩ := seen
  refine ⟨s, run, stopped, left, undropped, ?_⟩
  intro flushed
  obtain ⟨line, only⟩ := List.length_eq_one_iff.mp one
  have done := flushed line (by rw [only]; exact List.mem_cons_self) (by rw [undropped]; simp)
  rw [Written, unwritten] at done
  cases done

end Tundra.LogStop
