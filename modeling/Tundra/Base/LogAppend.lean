import Mathlib.Data.List.TakeWhile
import Tundra.Library.Machine
import Tundra.Base.AsyncLogger

set_option autoImplicit false

/- AsyncLogger::append at the end of a buffer, with the background thread idle. -/
namespace Tundra.LogAppend

open Library AsyncLogger

structure Call where
  now : TimeStamp
  logline : Bytes
  len : Nat
  level : Level

def Call.text (c : Call) : Bytes := trueLogLine c.now c.logline c.level

/-- The message has no NUL, its length is passed with it, and the formatted line is
shorter than a block. -/
def Allowed (c : Call) : Prop :=
  0 ∉ c.logline ∧ c.len = c.logline.length ∧ c.text.length < blockSize

def machine : Machine AsyncLogger Call where
  enabled _ c := Allowed c
  step l c := some (l.append c.now c.logline c.len c.level)

/-- The bytes of fullBuffers_ in order and of currentBuffer_. -/
def contents (l : AsyncLogger) : Bytes :=
  l.fullBuffers.flatMap FixedBuffer.data ++ l.currentBuffer.data

/-- The call adds its whole line. -/
def Added (l : AsyncLogger) (c : Call) (m : AsyncLogger) : Prop :=
  contents m = contents l ++ c.text

/-- The room left in the current buffer is below the length of the message or above
that of the formatted line. -/
def Clear (l : AsyncLogger) (c : Call) : Prop :=
  l.currentBuffer.avail < c.len ∨ c.text.length < l.currentBuffer.avail

theorem contents_eq (l : AsyncLogger) : contents l = linesBytes l.waiting := by
  rw [waiting, linesBytes_append, contents, FixedBuffer.flatMap_data]
  rfl

theorem clear_iff_room (l : AsyncLogger) (c : Call) (short : c.text.length < blockSize) :
    Clear l c ↔ Room l c.text c.len := by
  unfold Clear Room
  split
  · rename_i rotates
    exact ⟨fun _ => short, fun _ => Or.inl rotates⟩
  · rename_i stays
    exact ⟨fun clear => clear.resolve_left stays, Or.inr⟩

theorem step_added (l : AsyncLogger) (c : Call) (m : AsyncLogger) (pooled : Pooled l)
    (allowed : machine.enabled l c) (moved : machine.step l c = some m) :
    Added l c m ↔ Clear l c := by
  obtain rfl : l.append c.now c.logline c.len c.level = m := Option.some.inj moved
  have added := append_waiting l c.now c.logline c.len c.level pooled
  rw [clear_iff_room l c allowed.2.2, Added, contents_eq, contents_eq, added, linesBytes_append]
  change linesBytes l.waiting ++ linesBytes (if Room l c.text c.len then [⟨l.appends, c.text⟩]
    else []) = _ ↔ _
  by_cases room : Room l c.text c.len
  · rw [if_pos room, linesBytes_single]
    exact ⟨fun _ => room, fun _ => rfl⟩
  · rw [if_neg room]
    constructor
    · intro same
      -- a formatted line is never empty, so a lost one shows
      have none : c.text = [] := by
        have short := List.append_cancel_left same
        exact short.symm
      have ended : c.text.length ≠ 0 := by
        unfold Call.text trueLogLine
        rw [List.length_append, show (ascii "\n").length = 1 by decide]
        omega
      rw [none] at ended
      exact absurd rfl ended
    · intro lost
      exact absurd lost room

theorem append_preserves : machine.Preserves Pooled := by
  intro l c m pooled _ moved
  obtain rfl : l.append c.now c.logline c.len c.level = m := Option.some.inj moved
  exact append_pooled l c.now c.logline c.len c.level pooled

/-- In every sequence of calls, each one adds its line exactly when each one finds
the room below the message's length or above the line's. -/
theorem logAppend_added_iff (calls : List Call) (l : AsyncLogger)
    (run : machine.Run AsyncLogger.create calls l) :
    machine.Along Added AsyncLogger.create calls ↔
      machine.Along (fun l c _ => Clear l c) AsyncLogger.create calls :=
  run.along_iff append_preserves step_added create_pooled

theorem trueLogLine_length (now : TimeStamp) (logline : Bytes) (level : Level)
    (noNul : 0 ∉ logline) :
    (trueLogLine now logline level).length =
      now.toFormatString.length + level.name.length + logline.length + 3 := by
  have whole : logline.takeWhile (· ≠ 0) = logline := by
    rw [List.takeWhile_eq_self_iff]
    intro byte member
    have other : byte ≠ 0 := by
      intro same
      exact noNul (same ▸ member)
    simpa using other
  unfold trueLogLine
  rw [whole]
  simp only [List.length_append, show (ascii " ").length = 1 by decide,
    show (ascii "\n").length = 1 by decide]
  omega

/-- A message of `n` letters. -/
def letters (n : Nat) : Call := ⟨0, List.replicate n 65, n, .DEBUG⟩

theorem stamp_length : (TimeStamp.toFormatString 0).length = 24 := by decide +kernel

theorem letters_noNul (n : Nat) : 0 ∉ (letters n).logline := by
  intro member
  have same : (0 : UInt8) = 65 := List.eq_of_mem_replicate member
  revert same
  decide

theorem letters_length (n : Nat) : (letters n).text.length = n + 32 := by
  have size : (letters n).logline.length = n := List.length_replicate
  have line := trueLogLine_length (letters n).now (letters n).logline (letters n).level
    (letters_noNul n)
  rw [size] at line
  unfold Call.text
  rw [line, show (letters n).now.toFormatString.length = 24 from stamp_length,
    show (letters n).level.name.length = 5 from rfl]
  omega

theorem letters_allowed (n : Nat) (short : n + 32 < blockSize) : Allowed (letters n) := by
  refine ⟨letters_noNul n, ?_, ?_⟩
  · exact List.length_replicate.symm
  · rw [letters_length]
    exact short

theorem created_avail : AsyncLogger.create.currentBuffer.avail = blockSize := rfl

/-- A first message in an empty block leaves the rest of it. -/
theorem letters_avail (n : Nat) (short : n + 32 < blockSize) :
    (AsyncLogger.create.append 0 (letters n).logline n .DEBUG).currentBuffer.avail =
      blockSize - (n + 32) := by
  have stays : ¬ AsyncLogger.create.currentBuffer.avail < n := by
    rw [created_avail]
    omega
  have room : AsyncLogger.create.currentBuffer.accepts
      ⟨AsyncLogger.create.appends, (letters n).text⟩ = true := by
    rw [FixedBuffer.accepts_iff, created_avail, letters_length]
    exact short
  have left := FixedBuffer.append_avail _ _ room
  rw [append_eq, if_neg stays, put_current]
  rw [created_avail, letters_length] at left
  exact left

/-- A long first message, which leaves ten bytes of the first block. -/
theorem letters_ten : ∃ first, Allowed (letters (blockSize - 42)) ∧
    machine.step AsyncLogger.create (letters (blockSize - 42)) = some first ∧ Pooled first ∧
    first.currentBuffer.avail = 10 := by
  have size : blockSize - 42 + 32 < blockSize := by decide
  have allowed := letters_allowed (blockSize - 42) size
  obtain ⟨first, moved⟩ : ∃ l, machine.step AsyncLogger.create (letters (blockSize - 42)) =
    some l := ⟨_, rfl⟩
  refine ⟨first, allowed, moved, append_preserves _ _ _ create_pooled allowed moved, ?_⟩
  have left := letters_avail (blockSize - 42) size
  rw [← Option.some.inj moved]
  exact left.trans (by decide)

/-- Of the first block ten bytes are left: too few for a message of eleven letters, which gets a
block of its own. -/
theorem logAppend_added_short :
    ∃ l, machine.Run AsyncLogger.create [letters (blockSize - 42), letters 11] l ∧
      machine.Along Added AsyncLogger.create [letters (blockSize - 42), letters 11] := by
  obtain ⟨first, large, moved, _, avail⟩ := letters_ten
  obtain ⟨second, moved'⟩ : ∃ l, machine.step first (letters 11) = some l := ⟨_, rfl⟩
  have run := Machine.Run.cons large moved (.single (letters_allowed 11 (by decide)) moved')
  refine ⟨second, run, (logAppend_added_iff _ _ run).mpr ?_⟩
  intro m step
  obtain rfl : first = m := Option.some.inj (moved.symm.trans step)
  refine ⟨Or.inr ?_, fun n _ => ⟨Or.inl ?_, trivial⟩⟩
  · rw [letters_length, created_avail]
    decide
  · rw [avail]
    decide

/-- Of the first block ten bytes are left: enough for a message of five letters, and
not for its line, which is dropped. -/
theorem logAppend_lost :
    ∃ l, machine.Run AsyncLogger.create [letters (blockSize - 42), letters 5] l ∧
      ¬ machine.Along Added AsyncLogger.create [letters (blockSize - 42), letters 5] := by
  obtain ⟨first, large, moved, pooled, avail⟩ := letters_ten
  obtain ⟨second, moved'⟩ : ∃ l, machine.step first (letters 5) = some l := ⟨_, rfl⟩
  have allowed := letters_allowed 5 (by decide)
  refine ⟨second, .cons large moved (.single allowed moved'), ?_⟩
  intro along
  have added := ((along first moved).2 second moved').1
  have clear := (step_added first (letters 5) second pooled allowed moved').mp added
  unfold Clear at clear
  rw [letters_length, avail] at clear
  revert clear
  decide

end Tundra.LogAppend
