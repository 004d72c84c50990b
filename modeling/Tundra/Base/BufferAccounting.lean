import Tundra.Library.Machine
import Tundra.Base.AsyncLogger
import Tundra.Base.LogAppend
import Tundra.Base.LogPipeline

set_option autoImplicit false

/- How many buffers base/AsyncLogger has and how many it believes to have. -/
namespace Tundra

namespace AsyncLogger

/-- The buffers that mtx_ guards. -/
def held (l : AsyncLogger) : Nat := 1 + l.emptyBuffers.length + l.fullBuffers.length

/-- A rotation creates a buffer exactly when it counts one more. -/
theorem updateCurBuffer_held (l : AsyncLogger) :
    l.updateCurBuffer.held + l.curBufferCounts = l.held + l.updateCurBuffer.curBufferCounts := by
  unfold updateCurBuffer held
  split
  · rename_i first rest pool
    simp only [pool, List.length_append, List.length_cons, List.length_nil]
    omega
  · rename_i pool
    simp only [pool, List.length_append, List.length_cons, List.length_nil]
    omega

theorem put_held (l : AsyncLogger) (text : Bytes) : (l.put text).held = l.held := rfl

theorem put_curBufferCounts (l : AsyncLogger) (text : Bytes) :
    (l.put text).curBufferCounts = l.curBufferCounts := rfl

theorem append_held (l : AsyncLogger) (now : TimeStamp) (logline : Bytes) (len : Nat)
    (level : Level) :
    (l.append now logline len level).held + l.curBufferCounts =
      l.held + (l.append now logline len level).curBufferCounts := by
  rw [append_eq, put_held, put_curBufferCounts]
  split
  · exact updateCurBuffer_held l
  · rfl

end AsyncLogger

namespace LogPipeline

open Library AsyncLogger

/-- currentBuffer_, emptyBuffers_, fullBuffers_ and buffersToWrite together. -/
def State.alive (s : State) : Nat := s.logger.held + (s.cleared ++ s.toWrite).length

def Balanced (s : State) : Prop := s.logger.curBufferCounts = s.alive

/-- The count is right behind the step, and behind the test for overload few enough
buffers are left. -/
def Accounted (_ : State) (label : Label) (t : State) : Prop :=
  Balanced t ∧
    match label with
    | .overload _ _ => (t.cleared ++ t.toWrite).length ≤ maxBufferCounts - 1
    | _ => True

theorem started_balanced : Balanced started := by
  unfold Balanced
  decide

/-- Buffers change hands by the swap, and none is lost. -/
theorem swap_balanced (s : State) (balanced : Balanced s) : Balanced s.swap := by
  have rotated := updateCurBuffer_held s.logger
  unfold Balanced State.alive State.swap at *
  dsimp only
  split
  · unfold held at *
    simp only [List.nil_append]
    omega
  · unfold held at *
    simp only [List.nil_append]
    omega

/-- The overload branch erases one buffer and leaves the count as it is. -/
theorem overload_alive (s t : State) (now : TimeStamp) (stack : Bytes)
    (moved : next s (.overload now stack) = some t) :
    t.background = .writing ∧ t.logger = s.logger ∧ t.cleared = s.cleared ∧
      t.toWrite.length = if maxBufferCounts - 1 < s.toWrite.length then s.toWrite.length - 1
        else s.toWrite.length := by
  simp only [next] at moved
  split at moved
  · split at moved
    · rename_i many
      cases moved
      rw [if_pos many, List.length_eraseIdx_of_lt many]
      exact ⟨rfl, rfl, rfl, rfl⟩
    · rename_i few
      cases moved
      rw [if_neg few]
      exact ⟨rfl, rfl, rfl, rfl⟩
  · cases moved

/-- Every step but one into the overload branch keeps the count right. -/
theorem next_balanced (s t : State) (label : Label) (balanced : Balanced s)
    (enabled : Enabled s label) (bearable : Bearable s label) (moved : next s label = some t) :
    Balanced t := by
  cases label with
  | append now logline len level =>
      cases moved
      have grown := append_held s.logger now logline len level
      unfold Balanced State.alive at *
      dsimp only
      omega
  | stop =>
      cases moved
      exact balanced
  | loopTest =>
      simp only [next] at moved
      split at moved
      · cases moved
        exact balanced
      · split at moved
        · cases moved
          exact balanced
        · cases moved
  | lock =>
      simp only [next] at moved
      split at moved
      · cases moved
        exact balanced
      · cases moved
        exact swap_balanced s balanced
  | wake =>
      cases moved
      exact swap_balanced s balanced
  | overload now stack =>
      obtain ⟨_, logger, cleared, left⟩ := overload_alive s t now stack moved
      rw [if_neg (Nat.not_lt.mpr bearable)] at left
      unfold Balanced State.alive at *
      rw [logger, cleared, List.length_append, left, balanced, List.length_append]
  | write =>
      cases batch : s.toWrite with
      | nil => exact absurd batch enabled.2
      | cons first rest =>
          simp only [next, batch, Option.some.injEq] at moved
          subst moved
          unfold Balanced State.alive at *
          simp only [balanced, batch, List.length_append, List.length_cons, List.length_nil]
          omega
  | giveBack =>
      cases moved
      unfold Balanced State.alive held at *
      simp only [balanced, List.length_append, List.length_reverse, List.length_nil]
      omega

/-- In the states where the count is right, a step is accounted for exactly when it
does not enter the overload branch. -/
theorem accounted_iff_bearable (s : State) (label : Label) (t : State)
    (known : Orderly s ∧ Balanced s) (enabled : machine.enabled s label)
    (moved : machine.step s label = some t) : Accounted s label t ↔ Bearable s label := by
  obtain ⟨ordered, balanced⟩ := known
  constructor
  · intro accounted
    cases label with
    | overload now stack =>
        obtain ⟨_, logger, cleared, left⟩ := overload_alive s t now stack moved
        have counted := accounted.1
        unfold Balanced State.alive at *
        rw [logger, cleared, balanced, List.length_append, List.length_append] at counted
        change s.toWrite.length ≤ maxBufferCounts - 1
        split at left
        · omega
        · omega
    | _ => trivial
  · intro bearable
    refine ⟨next_balanced s t label balanced enabled bearable moved, ?_⟩
    cases label with
    | overload now stack =>
        obtain ⟨_, _, cleared, left⟩ := overload_alive s t now stack moved
        have at_ : s.background = .swapped := enabled
        rw [if_neg (Nat.not_lt.mpr bearable)] at left
        have none : s.cleared = [] := ordered.uncleared (by rw [at_]; decide)
        dsimp only
        rw [cleared, none, List.nil_append, left]
        exact bearable
    | _ => trivial

/-- In every run, the count is right in every state and every round keeps its limit
exactly when no round finds more full buffers than the limit. -/
theorem accounted_iff (labels : List Label) (s : State) (run : machine.Run started labels s) :
    (Balanced started ∧ machine.Along Accounted started labels) ↔
      machine.Along (fun s label _ => Bearable s label) started labels := by
  rw [and_iff_right started_balanced]
  refine run.along_iff_of_kept ?_ accounted_iff_bearable ⟨started_orderly, started_balanced⟩
  intro s label t known enabled moved accounted
  exact ⟨orderly_preserves s label t known.1 enabled moved, accounted.1⟩

theorem accounted_round :
    ∃ s, machine.Run started round s ∧ Balanced started ∧
      machine.Along Accounted started round := by
  obtain ⟨s, run, _⟩ := machine.exists_run_of_play started round
    (fun s => s.logger.accepted.length) 2 (by decide +kernel)
  exact ⟨s, run, (accounted_iff round s run).mpr (by decide +kernel)⟩

section Flood

/-- A message that leaves eight bytes of an empty block. -/
def bulk : Nat := blockSize - 40

/-- With too little left for the next one, every further message rotates. -/
theorem bulk_rotates (l : AsyncLogger) (pooled : Pooled l) (scarce : l.currentBuffer.avail < bulk) :
    (l.append 0 (LogAppend.letters bulk).logline bulk .DEBUG).fullBuffers.length =
        l.fullBuffers.length + 1 ∧
      (l.append 0 (LogAppend.letters bulk).logline bulk .DEBUG).currentBuffer.avail < bulk := by
  obtain ⟨_, current, full, appends, _⟩ := updateCurBuffer_spec l pooled
  have fresh : (FixedBuffer.create blockSize).avail = blockSize := rfl
  have size : (LogAppend.letters bulk).text.length = bulk + 32 := LogAppend.letters_length bulk
  have room : (FixedBuffer.create blockSize).accepts
      ⟨l.appends, (LogAppend.letters bulk).text⟩ = true := by
    rw [FixedBuffer.accepts_iff, fresh, size]
    decide
  have left := FixedBuffer.append_avail _ _ room
  rw [fresh, size] at left
  rw [append_eq, if_pos scarce, put_fullBuffers, full, List.length_append, put_current, current,
    appends]
  refine ⟨rfl, ?_⟩
  have spare : blockSize - (bulk + 32) < bulk := by decide
  exact left.trans_lt spare

def bulkAppend : Label := .append 0 (LogAppend.letters bulk).logline bulk .DEBUG

/-- The producers go on while the background thread is about to test its loop. -/
theorem bulk_run (n : Nat) :
    ∃ s, machine.Run started (List.replicate (n + 1) bulkAppend) s ∧ Orderly s ∧ Balanced s ∧
      s.background = .loopTest ∧ s.stop = false ∧ s.logger.fullBuffers.length = n ∧
      s.logger.currentBuffer.avail < bulk := by
  induction n with
  | zero =>
      have enabled : Enabled started bulkAppend := trivial
      have avail := LogAppend.letters_avail bulk (by decide)
      refine ⟨_, .single enabled rfl, orderly_preserves _ bulkAppend _ started_orderly enabled rfl,
        next_balanced _ _ _ started_balanced enabled trivial rfl, rfl, rfl, ?_, ?_⟩
      · rw [append_eq, put_fullBuffers, if_neg (by decide)]
        rfl
      · exact avail.trans_lt (by decide)
  | succ n ih =>
      obtain ⟨s, run, ordered, balanced, at_, going, full, scarce⟩ := ih
      have enabled : Enabled s bulkAppend := trivial
      obtain ⟨more, spare⟩ := bulk_rotates s.logger ordered.pooled scarce
      rw [List.replicate_succ']
      refine ⟨_, run.snoc enabled rfl, orderly_preserves _ bulkAppend _ ordered enabled rfl,
        next_balanced _ _ _ balanced enabled trivial rfl, at_, going, ?_, spare⟩
      rw [← full]
      exact more

/-- Eighteen such messages before a round of the background thread. -/
def flood : List Label :=
  List.replicate 18 bulkAppend ++ [.loopTest] ++ [.lock] ++ [.overload 0 []]

/-- Seventeen full buffers are found and one of them erased: sixteen are left, and the
erased one is still counted. -/
theorem flood_unaccounted :
    ∃ s, machine.Run started flood s ∧ s.background = .writing ∧
      s.logger.curBufferCounts = s.alive + 1 ∧
      (s.cleared ++ s.toWrite).length = maxBufferCounts := by
  obtain ⟨s, run, ordered, balanced, at_, going, full, _⟩ := bulk_run 17
  have outside : s.background ≠ .writing := by rw [at_]; decide
  have outside' : s.background ≠ .swapped := by rw [at_]; decide
  obtain ⟨uncleared, unswapped⟩ := ordered.idle outside outside'
  have filled : s.logger.fullBuffers ≠ [] := by
    intro none
    rw [none] at full
    cases full
  have tested : next s .loopTest = some { s with background := .locking } := by
    simp only [next, going, uncleared, unswapped, Bool.false_eq_true, List.append_nil, ↓reduceIte]
  have locked := ordered.move .locking outside outside' (by decide)
  obtain ⟨swapped, _, _, _, _, _, batch⟩ := swap_spec _ locked (Or.inl rfl)
  have taken : next { s with background := .locking } .lock =
      some (State.swap { s with background := .locking }) := by
    simp only [next, filled, ↓reduceIte]
  have enabled : Enabled (State.swap { s with background := .locking }) (.overload 0 []) := rfl
  obtain ⟨t, erased, _⟩ := next_orderly _ (.overload 0 []) swapped enabled
  obtain ⟨writing, logger, cleared, left⟩ := overload_alive _ t 0 [] erased
  have counted := swap_balanced { s with background := .locking } balanced
  have sizes : (State.swap { s with background := .locking }).toWrite.length = 17 := by
    rw [batch filled, full]
  rw [sizes, if_pos (by decide)] at left
  have testing : machine.enabled s .loopTest := at_
  have locking : machine.enabled { s with background := .locking } .lock := rfl
  have whole : machine.Run started flood t :=
    ((run.snoc testing tested).snoc locking taken).snoc enabled erased
  refine ⟨t, whole, writing, ?_, ?_⟩
  · unfold Balanced State.alive at counted
    rw [List.length_append, sizes] at counted
    unfold State.alive
    rw [logger, cleared, List.length_append, left, counted]
    rfl
  · rw [cleared, List.length_append, left]
    rfl

end Flood

end LogPipeline
end Tundra
