import Mathlib.Data.Prod.Lex
import Tundra.Base.LogStorage
import Tundra.Library.Execution

set_option autoImplicit false

/- That no accepted line stays in the buffers of base/AsyncLogger for ever, as long as its
background thread goes on, whatever the producers do. -/
namespace Tundra.LogProgress

open Library Library.Machine AsyncLogger LogPipeline

/-- The line has been passed to LogFile::append, or its buffer has been dropped. -/
def Settled (line : Line) (s : State) : Prop :=
  line ∈ s.logFile.flatMap Record.lines ∨ line ∈ s.dropped

/-- The steps of run(). -/
def OfBackground : Label → Prop
  | .loopTest | .lock | .wake | .overload _ _ | .write | .giveBack => True
  | .append _ _ _ _ | .stop => False

/-- How many swaps it takes until the line is in buffersToWrite: the next one leaves the
current buffer behind if there are full ones. -/
def swaps (line : Line) (s : State) : Nat :=
  if line ∈ s.toWrite.flatMap FixedBuffer.lines then 0
  else if line ∈ s.logger.fullBuffers.flatMap FixedBuffer.lines ∨ s.logger.fullBuffers = [] then 1
  else 2

/-- How far run() is from its next swap. -/
def toSwap (s : State) : Nat :=
  match s.background with
  | .swapped => s.toWrite.length + 5
  | .writing => s.toWrite.length + 4
  | .loopTest => 3
  | .locking => 2
  | .waiting => 1
  | .exited => 0

def rank (line : Line) (s : State) : Nat ×ₗ Nat := toLex (swaps line s, toSwap s)

/-- The line is in one of the buffers. -/
def Buffered (line : Line) (s : State) : Prop :=
  line ∈ s.toWrite.flatMap FixedBuffer.lines ∨ line ∈ s.logger.waiting

section

variable {line : Line} {s t : State}

theorem rank_lt (fewer : swaps line t ≤ swaps line s) (nearer : toSwap t < toSwap s) :
    rank line t < rank line s := by
  rw [rank, rank, Prod.Lex.toLex_lt_toLex]
  rcases Nat.lt_or_eq_of_le fewer with less | same
  · exact Or.inl less
  · exact Or.inr ⟨same, nearer⟩

theorem rank_lt_of_swaps (fewer : swaps line t < swaps line s) : rank line t < rank line s := by
  rw [rank, rank, Prod.Lex.toLex_lt_toLex]
  exact Or.inl fewer

/-- Nothing comes between the line and buffersToWrite. -/
theorem swaps_le (full : t.logger.fullBuffers = s.logger.fullBuffers)
    (kept : line ∈ s.toWrite.flatMap FixedBuffer.lines →
      line ∈ t.toWrite.flatMap FixedBuffer.lines) : swaps line t ≤ swaps line s := by
  by_cases inside : line ∈ t.toWrite.flatMap FixedBuffer.lines
  · rw [swaps, if_pos inside]
    exact Nat.zero_le _
  · rw [swaps, swaps, if_neg inside, if_neg fun before => inside (kept before), full]

/-- A rotation takes the line along. -/
theorem append_rank (ordered : Orderly s) (buffered : Buffered line s) (now : TimeStamp)
    (logline : Bytes) (len : Nat) (level : Level) :
    rank line { s with logger := s.logger.append now logline len level } ≤ rank line s := by
  have same : toSwap { s with logger := s.logger.append now logline len level } = toSwap s := rfl
  have fewer : swaps line { s with logger := s.logger.append now logline len level } ≤
      swaps line s := by
    unfold swaps
    dsimp only
    split
    · exact Nat.le_refl 0
    · rename_i outside
      rcases append_keeps s.logger now logline len level ordered.pooled with ⟨full, _⟩ | full
      · rw [full]
      · have waits := buffered.resolve_left outside
        rw [waiting] at waits
        have taken : line ∈ ((s.logger.fullBuffers ++ [s.logger.currentBuffer]).flatMap
            FixedBuffer.lines) ∨ s.logger.fullBuffers ++ [s.logger.currentBuffer] = [] := by
          left
          rw [List.flatMap_append, List.flatMap_singleton]
          exact waits
        rw [full, if_pos taken]
        split <;> omega
  rw [rank, rank, same, Prod.Lex.toLex_le_toLex]
  rcases Nat.lt_or_eq_of_le fewer with less | equal
  · exact Or.inl less
  · exact Or.inr ⟨equal, Nat.le_refl _⟩

/-- The swap brings the line nearer to buffersToWrite. -/
theorem swap_rank (ordered : Orderly s) (buffered : Buffered line s)
    (before : s.background = .locking ∨ s.background = .waiting) :
    rank line s.swap < rank line s := by
  obtain ⟨_, _, _, none, stream, rotated, taken⟩ := swap_spec s ordered before
  have idle : s.toWrite = [] := by
    rcases before with at_ | at_
    · exact (ordered.idle (by rw [at_]; decide) (by rw [at_]; decide)).2
    · exact (ordered.idle (by rw [at_]; decide) (by rw [at_]; decide)).2
  have waits : line ∈ s.logger.waiting := by
    refine buffered.resolve_left ?_
    rw [idle]
    exact List.not_mem_nil
  have outside : line ∉ s.toWrite.flatMap FixedBuffer.lines := by
    rw [idle]
    exact List.not_mem_nil
  apply rank_lt_of_swaps
  by_cases next : line ∈ s.logger.fullBuffers.flatMap FixedBuffer.lines ∨ s.logger.fullBuffers = []
  · have inside : line ∈ s.swap.toWrite.flatMap FixedBuffer.lines := by
      by_cases empty : s.logger.fullBuffers = []
      · rw [rotated empty, List.flatMap_singleton]
        rw [waiting, empty] at waits
        exact waits
      · rw [taken empty]
        exact next.resolve_right empty
    rw [swaps, swaps, if_pos inside, if_neg outside, if_pos next]
    exact Nat.one_pos
  · conv_rhs => rw [swaps, if_neg outside, if_neg next]
    rw [swaps]
    split
    · omega
    · rw [if_pos (Or.inr none)]
      omega

/-- The buffer that is dropped takes no other line with it. -/
theorem erased_kept {buffers : List FixedBuffer} {n : Nat} (within : n < buffers.length)
    (elsewhere : line ∉ (buffers.get ⟨n, within⟩).lines)
    (member : line ∈ buffers.flatMap FixedBuffer.lines) :
    line ∈ (buffers.eraseIdx n).flatMap FixedBuffer.lines := by
  rw [← List.take_append_drop n buffers, List.drop_eq_getElem_cons within, List.flatMap_append,
    List.flatMap_cons] at member
  rw [List.eraseIdx_eq_take_drop_succ, List.flatMap_append]
  rcases List.mem_append.mp member with front | behind
  · exact List.mem_append_left _ front
  · exact List.mem_append_right _ ((List.mem_append.mp behind).resolve_left elsewhere)

/-- Every step of run() settles the line or brings it nearer to that. -/
theorem next_rank (ordered : Orderly s) (buffered : Buffered line s) (label : Label)
    (running : s.stop = false) (background : OfBackground label) (enabled : Enabled s label)
    (moved : LogPipeline.next s label = some t) : Settled line t ∨ rank line t < rank line s := by
  cases label with
  | append | stop => cases background
  | loopTest =>
      have at_ : s.background = .loopTest := enabled
      simp only [LogPipeline.next, running] at moved
      rw [if_neg (by decide)] at moved
      split at moved
      · cases moved
        exact Or.inr (rank_lt (swaps_le rfl id) (by simp [toSwap, at_]))
      · cases moved
  | lock =>
      have at_ : s.background = .locking := enabled
      simp only [LogPipeline.next] at moved
      split at moved
      · cases moved
        exact Or.inr (rank_lt (swaps_le rfl id) (by simp [toSwap, at_]))
      · cases moved
        exact Or.inr (swap_rank ordered buffered (Or.inl at_))
  | wake =>
      cases moved
      exact Or.inr (swap_rank ordered buffered (Or.inr enabled))
  | overload now stack =>
      have at_ : s.background = .swapped := enabled
      simp only [LogPipeline.next] at moved
      split at moved
      · split at moved
        · rename_i many
          have found := List.getElem?_eq_getElem many
          rw [found] at moved
          cases moved
          by_cases erased : line ∈ (s.toWrite.get ⟨maxBufferCounts - 1, many⟩).lines
          · exact Or.inl (Or.inr (List.mem_append_right _ erased))
          · refine Or.inr (rank_lt (swaps_le rfl (erased_kept many erased)) ?_)
            have shorter := List.length_eraseIdx_le s.toWrite (maxBufferCounts - 1)
            simp only [toSwap, at_]
            omega
        · cases moved
          refine Or.inr (rank_lt (swaps_le rfl id) ?_)
          simp [toSwap, at_]
      · cases moved
  | write =>
      obtain ⟨at_, _⟩ := enabled
      cases batch : s.toWrite with
      | nil =>
          rw [LogPipeline.next, batch] at moved
          cases moved
      | cons first rest =>
          simp only [LogPipeline.next, batch, Option.some.injEq] at moved
          subst moved
          by_cases here : line ∈ first.lines
          · left
            left
            rw [List.flatMap_append, List.flatMap_singleton]
            exact List.mem_append_right _ here
          · refine Or.inr (rank_lt (swaps_le rfl ?_) ?_)
            · rw [batch, List.flatMap_cons]
              exact fun before => (List.mem_append.mp before).resolve_left here
            · simp [toSwap, at_, batch]
  | giveBack =>
      obtain ⟨at_, none⟩ := enabled
      cases moved
      refine Or.inr (rank_lt (swaps_le rfl id) ?_)
      simp [toSwap, at_, none]

/-- Every accepted line is accounted for, and the buffers are where they belong. -/
def Accounted (s : State) : Prop := Orderly s ∧ LogStorage.Account s

theorem accounted_preserves : LogPipeline.machine.Preserves Accounted := by
  intro s label t accounted enabled moved
  refine ⟨orderly_preserves s label t accounted.1 enabled moved, ?_⟩
  exact (LogStorage.next_moved s t label enabled moved).account accounted.1 accounted.2

theorem Accounted.buffered (accounted : Accounted s) (accepted : line ∈ s.logger.accepted)
    (unsettled : ¬ Settled line s) : Buffered line s := by
  have member := accounted.2.complete.mem_iff.mpr accepted
  rw [LogPipeline.State.stream, List.mem_append, List.mem_append, List.mem_append] at member
  rcases member with ((written | inside) | waits) | dropped
  · exact absurd (Or.inl written) unsettled
  · exact Or.inl inside
  · exact Or.inr waits
  · exact absurd (Or.inr dropped) unsettled

theorem next_accepted (accounted : Accounted s) (label : Label) (enabled : Enabled s label)
    (moved : LogPipeline.next s label = some t) (member : line ∈ s.logger.accepted) :
    line ∈ t.logger.accepted := by
  cases LogStorage.next_moved s t label enabled moved with
  | append now logline len level =>
      obtain ⟨new, _, takes⟩ :=
        append_accepted s.logger now logline len level accounted.1.pooled
      dsimp only
      rw [takes]
      exact List.mem_append_left _ member
  | quiet _ _ accepted => exact accepted ▸ member
  | swap _ _ before =>
      rw [(swap_spec s accounted.1 before).2.2.1]
      exact member
  | drop => exact member
  | write => exact member

/-- In every endless run of producers and background thread in which the latter goes on and
stop() is not called: each accepted line is written to the LogFile or dropped with its
buffer at some time, however much the producers append. -/
theorem line_settled (e : Execution LogPipeline.machine started)
    (fair : ∀ n, ∃ m ≥ n, ∃ label, e.label m = some label ∧ OfBackground label)
    (running : ∀ n, (e.state n).stop = false) (n : Nat) (line : Line)
    (accepted : line ∈ (e.state n).logger.accepted) : ∃ m ≥ n, Settled line (e.state m) := by
  have start : Accounted started :=
    ⟨started_orderly, List.Sublist.refl _, List.Perm.refl _⟩
  have accounted (m : Nat) := e.invariant accounted_preserves start m
  have buffered (m : Nat) (later : n ≤ m) (unsettled : ¬ Settled line (e.state m)) :
      Buffered line (e.state m) := by
    refine (accounted m).buffered ?_ unsettled
    refine e.kept (p := fun s => line ∈ s.logger.accepted) ?_ later accepted
    intro k label taken member
    obtain ⟨enabled, moved⟩ := e.moves k label taken
    exact next_accepted (accounted k) label enabled moved member
  refine e.reaches (Settled line) OfBackground (rank line) n ?_ ?_ ?_
  · intro m later label taken unsettled
    obtain ⟨enabled, moved⟩ := e.moves m label taken
    have held := buffered m later unsettled
    by_cases background : OfBackground label
    · exact (next_rank (accounted m).1 held label (running m) background enabled
        moved).imp_right le_of_lt
    · cases label with
      | append now logline len level =>
          rw [← Option.some.inj moved]
          exact Or.inr (append_rank (accounted m).1 held now logline len level)
      | stop =>
          have stopped := running (m + 1)
          rw [← Option.some.inj moved] at stopped
          cases stopped
      | loopTest | lock | wake | overload | write | giveBack => exact absurd trivial background
  · intro m later label taken background unsettled
    obtain ⟨enabled, moved⟩ := e.moves m label taken
    exact next_rank (accounted m).1 (buffered m later unsettled) label (running m) background
      enabled moved
  · intro m _
    obtain ⟨k, after, found⟩ := fair m
    exact ⟨k, after, Or.inr found⟩

theorem next_stop (label : Label) (background : OfBackground label)
    (moved : LogPipeline.next s label = some t) : t.stop = s.stop := by
  cases label with
  | append | stop => cases background
  | wake | giveBack =>
      cases moved
      rfl
  | loopTest | lock | overload | write =>
      simp only [LogPipeline.next] at moved
      repeat' split at moved
      all_goals
        cases moved
        try rfl

/-- run() is under way, and stop() has not been called. -/
structure Going (s : State) : Prop where
  ordered : Orderly s
  inside : s.background ≠ .exited
  running : s.stop = false

theorem Going.step (going : Going s) (label : Label) (background : OfBackground label)
    (enabled : Enabled s label) (stays : LogStorage.leaves s label = false) :
    ∃ label t, OfBackground label ∧ LogPipeline.machine.enabled s label ∧
      LogPipeline.machine.step s label = some t ∧ Going t := by
  obtain ⟨t, moved, kept⟩ := next_orderly s label going.ordered enabled
  refine ⟨label, t, background, enabled, moved, kept, ?_,
    (next_stop label background moved).trans going.running⟩
  intro exited
  rcases (LogStorage.next_moved s t label enabled moved).exits.mp exited with gone | leaves
  · exact going.inside gone
  · rw [stays] at leaves
    cases leaves

/-- run() always has a next step. -/
theorem Going.next (going : Going s) :
    ∃ label t, OfBackground label ∧ LogPipeline.machine.enabled s label ∧
      LogPipeline.machine.step s label = some t ∧ Going t := by
  cases at_ : s.background with
  | loopTest => exact going.step .loopTest trivial at_ going.running
  | locking => exact going.step .lock trivial at_ rfl
  | waiting => exact going.step .wake trivial at_ rfl
  | swapped => exact going.step (.overload 0 []) trivial at_ rfl
  | writing =>
      by_cases none : s.toWrite = []
      · exact going.step .giveBack trivial ⟨at_, none⟩ rfl
      · exact going.step .write trivial ⟨at_, none⟩ rfl
  | exited => exact absurd at_ going.inside

end

/-- The step of a producer that appends a message of five letters. -/
def fiveLetters : Label := .append 0 (LogAppend.letters 5).logline 5 .DEBUG

theorem line_settled_letters :
    ∃ e : Execution LogPipeline.machine started,
      (∀ n, ∃ m ≥ n, ∃ label, e.label m = some label ∧ OfBackground label) ∧
      (∀ n, (e.state n).stop = false) ∧ ¬ Settled ⟨0, (LogAppend.letters 5).text⟩ (e.state 1) ∧
      ∃ m ≥ 1, Settled ⟨0, (LogAppend.letters 5).text⟩ (e.state m) := by
  obtain ⟨t, moved, ordered⟩ := next_orderly started fiveLetters started_orderly trivial
  have appended : t = { started with
      logger := AsyncLogger.create.append 0 (LogAppend.letters 5).logline 5 .DEBUG } :=
    (Option.some.inj moved).symm
  have going : Going t := ⟨ordered, by rw [appended]; decide, by rw [appended]; rfl⟩
  obtain ⟨later, goes⟩ := exists_endless (fun _ going => Going.next going) going
  have run : LogPipeline.machine.Run started [fiveLetters] t := .single trivial moved
  obtain ⟨e, ends, _⟩ := exists_execution run later
  rw [List.length_singleton] at ends
  have first : e.state 1 = t := (ends 0).1.trans later.begins
  have fair (n : Nat) : ∃ m ≥ n, ∃ label, e.label m = some label ∧ OfBackground label :=
    ⟨n + 1, Nat.le_succ n, by rw [(ends n).2]; exact (goes n).2⟩
  have running (n : Nat) : (e.state n).stop = false := by
    cases n with
    | zero => rw [e.begins]; rfl
    | succ n => rw [(ends n).1]; exact (goes n).1.running
  have accepted : ⟨0, (LogAppend.letters 5).text⟩ ∈ (e.state 1).logger.accepted := by
    obtain ⟨none, lines⟩ := LogStorage.letters_append 5 (by decide)
    obtain ⟨new, waits, takes⟩ := append_accepted AsyncLogger.create 0
      (LogAppend.letters 5).logline 5 .DEBUG create_pooled
    rw [first, appended, takes]
    apply List.mem_append_right
    have whole : AsyncLogger.create.waiting = [] := rfl
    rw [whole, List.nil_append, waiting, none, lines] at waits
    rw [← waits]
    exact List.mem_singleton_self _
  refine ⟨e, fair, running, ?_, line_settled e fair running 1 _ accepted⟩
  rw [first, appended]
  rintro (written | dropped)
  · cases written
  · cases dropped

end Tundra.LogProgress
