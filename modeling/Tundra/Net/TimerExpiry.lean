import Mathlib.Data.List.Chain
import Tundra.Net.TimerAlarm
import Tundra.Net.TimerCancel

set_option autoImplicit false

/- When the timers run. handleRead runs those that were due when it took the time, and each
Timer keeps to what it was made for: not before its time, once or in its interval. -/
namespace Tundra

open Library Machine

/-- What addTimer has been called with. -/
structure TimerSpec where
  when_ : TimeStamp
  interval : Int
  repeats : Bool

namespace TimerSpec

/-- The times at which a Timer has been run. -/
structure Kept (spec : TimerSpec) (times : List TimeStamp) : Prop where
  first : ∀ time ∈ times.head?, spec.when_ ≤ time
  once : spec.repeats = false → times.length ≤ 1
  spaced : spec.repeats = true → times.IsChain fun a b => a + spec.interval ≤ b

/-- The expiration with which a Timer waits for its next run. -/
def Awaits (spec : TimerSpec) (times : List TimeStamp) (expiration : TimeStamp) : Prop :=
  times = [] ∧ expiration = spec.when_ ∨
    spec.repeats = true ∧ ∃ last, times.getLast? = some last ∧ expiration = last + spec.interval

theorem kept_nil (spec : TimerSpec) : spec.Kept [] where
  first time none := by cases none
  once _ := Nat.zero_le _
  spaced _ := .nil

theorem Kept.run {spec : TimerSpec} {times : List TimeStamp} (kept : spec.Kept times)
    {expiration now : TimeStamp} (awaits : spec.Awaits times expiration)
    (come : expiration ≤ now) : spec.Kept (times ++ [now]) := by
  rcases awaits with ⟨rfl, rfl⟩ | ⟨repeats, last, before, rfl⟩
  · constructor
    · intro time same
      cases same
      exact come
    · intro _
      exact Nat.le_refl 1
    · intro _
      exact List.isChain_singleton now
  · have nonempty : times ≠ [] := by
      rintro rfl
      cases before
    constructor
    · rw [List.head?_append_of_ne_nil _ nonempty]
      exact kept.first
    · intro never
      rw [repeats] at never
      cases never
    · intro _
      apply (kept.spaced repeats).append (List.isChain_singleton now)
      intro x final y same
      cases same
      obtain rfl : x = last := Option.some.inj (final.symm.trans before)
      exact come

theorem Kept.not_before {spec : TimerSpec} {times : List TimeStamp} (kept : spec.Kept times)
    (oneShot : spec.repeats = false) : ∀ time ∈ times, spec.when_ ≤ time := by
  intro time member
  have short := kept.once oneShot
  cases times with
  | nil => cases member
  | cons first rest =>
      have alone : rest = [] := List.eq_nil_of_length_eq_zero (by simpa using short)
      rw [alone, List.mem_singleton] at member
      rw [member]
      exact kept.first first rfl

end TimerSpec

/-- The callbacks that handleRead has still to run. -/
def Phase.toRun : Phase → List (Nat × TimeStamp)
  | .calling remaining _ now => remaining.map fun entry => (entry.timer.2, now)
  | .idle | .resetting _ _ => []

namespace TimerQueue

def Label.spec : Label → Option TimerSpec
  | .newTimer _ when_ interval repeats => some ⟨when_, interval, repeats⟩
  | _ => none

/-- The Timers in the order in which they have been made; the first has sequence number 1. -/
def specs (labels : List Label) : List TimerSpec := labels.filterMap Label.spec

/-- The times at which the Timer with a sequence number has been run. -/
def times (s : TimerQueue) (sequence : Nat) : List TimeStamp :=
  (s.ran.filter fun r => r.1 = sequence).map Prod.snd

/-- An entry of timers_. -/
def Queued (s : TimerQueue) (entry : Entry) : Prop :=
  s.timers.find (key entry.expiration entry.timer) = some entry.timer.2

/-- The callback of the timer has been run and reset has not come to it. -/
def Spent (s : TimerQueue) (p : ActiveTimer) : Prop :=
  p ∈ s.phase.batch ∧ p ∉ s.phase.remaining

structure Follows (s : TimerQueue) (spec : TimerSpec) (p : ActiveTimer) (t : Timer) : Prop where
  interval : spec.interval = t.interval
  repeats : spec.repeats = t.repeat_
  awaits : ¬ s.Spent p → spec.Awaits (s.times p.2) t.expiration
  spent : s.Spent p → (s.times p.2).getLast? = s.phase.clock

structure Timely (specs : List TimerSpec) (s : TimerQueue) : Prop where
  made : specs.length = s.numCreated
  unborn : ∀ q, s.numCreated < q → s.times q = []
  kept : ∀ (i : Nat) (spec : TimerSpec), specs[i]? = some spec → spec.Kept (s.times (i + 1))
  live : ∀ p t, s.deref p = some t → ∃ spec, specs[p.2 - 1]? = some spec ∧ s.Follows spec p t
  soon : ∀ p ∈ s.phase.remaining, ∀ t, s.deref p = some t →
    ∀ now, s.phase.clock = some now → t.expiration ≤ now

section Steps

variable {specs : List TimerSpec} {s t : TimerQueue}

theorem times_of_ran (ran : t.ran = s.ran) (q : Nat) : t.times q = s.times q := by
  rw [times, times, ran]

theorem Timely.follows (timely : Timely specs s) {p : ActiveTimer} {u : Timer}
    (found : s.deref p = some u) (times : t.times p.2 = s.times p.2)
    (spent : t.Spent p ↔ s.Spent p) (clock : t.Spent p → t.phase.clock = s.phase.clock) :
    ∃ spec, specs[p.2 - 1]? = some spec ∧ t.Follows spec p u := by
  obtain ⟨spec, listed, follows⟩ := timely.live p u found
  refine ⟨spec, listed, follows.interval, follows.repeats, ?_, ?_⟩
  · intro waits
    rw [times]
    exact follows.awaits fun before => waits (spent.mpr before)
  · intro passed
    rw [times, clock passed]
    exact follows.spent (spent.mp passed)

/-- A step that makes no Timer and runs none. -/
theorem Timely.quiet (timely : Timely specs s) (created : t.created = s.created)
    (ran : t.ran = s.ran)
    (live : ∀ p u, t.deref p = some u → ∃ spec, specs[p.2 - 1]? = some spec ∧ t.Follows spec p u)
    (soon : ∀ p ∈ t.phase.remaining, ∀ u, t.deref p = some u →
      ∀ now, t.phase.clock = some now → u.expiration ≤ now) : Timely specs t where
  made := by
    rw [numCreated, created]
    exact timely.made
  unborn q above := by
    rw [numCreated, created] at above
    rw [times_of_ran ran q]
    exact timely.unborn q above
  kept i spec listed := by
    rw [times_of_ran ran (i + 1)]
    exact timely.kept i spec listed
  live := live
  soon := soon

/-- The same while handleRead stays where it is. -/
theorem Timely.same (timely : Timely specs s) (created : t.created = s.created)
    (ran : t.ran = s.ran) (phase : t.phase = s.phase)
    (deref : ∀ p u, t.deref p = some u → s.deref p = some u) : Timely specs t := by
  apply timely.quiet created ran
  · intro p u found
    exact timely.follows (deref p u found) (times_of_ran ran p.2)
      (by rw [Spent, Spent, phase]) (fun _ => by rw [phase])
  · intro p member u found now clock
    rw [phase] at member clock
    exact timely.soon p member u (deref p u found) now clock

theorem deref_freed {p q : ActiveTimer} {u : Timer} (found : (s.freed p).deref q = some u) :
    s.deref q = some u ∧ q ≠ p := by
  obtain ⟨there, sequence⟩ := (deref_eq_some _ q u).mp found
  have different : q.1 ≠ p.1 := by
    intro same
    rw [same, show (s.freed p).heap p.1 = none from Function.update_self ..] at there
    cases there
  refine ⟨(deref_eq_some s q u).mpr ⟨?_, sequence⟩, fun equal => different (by rw [equal])⟩
  rw [← there]
  exact (Function.update_of_ne different ..).symm

theorem deref_newTimer {address : Nat} {when_ : TimeStamp} {interval : Int} {repeats : Bool}
    {q : ActiveTimer} {u : Timer}
    (found : (s.newTimer address when_ interval repeats).deref q = some u) :
    s.deref q = some u ∨
      q = (address, s.numCreated + 1) ∧ u = ⟨when_, interval, repeats, s.numCreated + 1⟩ := by
  obtain ⟨there, sequence⟩ := (deref_eq_some _ q u).mp found
  by_cases same : q.1 = address
  · right
    rw [same, show (s.newTimer address when_ interval repeats).heap address = _ from
      Function.update_self .., Option.some.injEq] at there
    subst there
    exact ⟨Prod.ext same sequence.symm, rfl⟩
  · left
    refine (deref_eq_some s q u).mpr ⟨?_, sequence⟩
    rw [← there]
    exact (Function.update_of_ne same ..).symm

theorem deref_restarted_cases {p q : ActiveTimer} {u v : Timer} (same : u.sequence = p.2)
    (found : (s.restarted p u).deref q = some v) :
    q = p ∧ v = u ∨ q ≠ p ∧ s.deref q = some v := by
  by_cases equal : q = p
  · subst equal
    rw [deref_restarted s q u same, Option.some.injEq] at found
    exact Or.inl ⟨rfl, found.symm⟩
  · right
    obtain ⟨there, sequence⟩ := (deref_eq_some _ q v).mp found
    have different : q.1 ≠ p.1 := by
      intro address
      rw [address, show (s.restarted p u).heap p.1 = some u from Function.update_self ..,
        Option.some.injEq] at there
      exact equal (Prod.ext address (by rw [← sequence, ← there, same]))
    refine ⟨equal, (deref_eq_some s q v).mpr ⟨?_, sequence⟩⟩
    rw [← there]
    exact (Function.update_of_ne different ..).symm

/-- A Timer in the batch of handleRead is alive. -/
theorem Invariant.batch_live (inv : Invariant s) {p : ActiveTimer} (member : p ∈ s.phase.batch) :
    s.Live p :=
  (inv.owned.live p).mpr (Or.inl (List.mem_append_right _ member))

theorem Invariant.remaining_batch (inv : Invariant s) {p : ActiveTimer}
    (member : p ∈ s.phase.remaining) : p ∈ s.phase.batch := by
  cases phase : s.phase with
  | calling remaining expired now =>
      rw [phase] at member
      exact ((inv.suffix _ _ _ phase).sublist.map Entry.timer).subset member
  | idle | resetting =>
      rw [phase] at member
      cases member

theorem Invariant.batch_nodup (inv : Invariant s) : s.phase.batch.Nodup :=
  (List.nodup_append.mp inv.owned.nodup).2.1

theorem Timely.made_step (inv : Invariant s) (timely : Timely specs s) (address : Nat)
    (when_ : TimeStamp) (interval : Int) (repeats : Bool) :
    Timely (specs ++ [⟨when_, interval, repeats⟩]) (s.newTimer address when_ interval repeats) := by
  have length : s.numCreated = specs.length := timely.made.symm
  have more : (s.newTimer address when_ interval repeats).numCreated = s.numCreated + 1 := by
    simp [numCreated, newTimer]
  have none : s.times (s.numCreated + 1) = [] := timely.unborn _ (Nat.lt_succ_self _)
  constructor
  · rw [more, length, List.length_append, List.length_singleton]
  · intro q above
    rw [more] at above
    exact timely.unborn q (by omega)
  · intro i spec listed
    by_cases old : i < specs.length
    · rw [List.getElem?_append_left old] at listed
      exact timely.kept i spec listed
    · have last : i = s.numCreated := by
        obtain ⟨below, _⟩ := List.getElem?_eq_some_iff.mp listed
        rw [List.length_append, List.length_singleton] at below
        omega
      show spec.Kept (s.times (i + 1))
      rw [last, none]
      exact spec.kept_nil
  · intro p u found
    rcases deref_newTimer found with before | ⟨rfl, rfl⟩
    · obtain ⟨spec, listed, follows⟩ := timely.live p u before
      have bound := (List.getElem?_eq_some_iff.mp listed).1
      refine ⟨spec, ?_, follows.interval, follows.repeats, follows.awaits, follows.spent⟩
      rw [List.getElem?_append_left bound, listed]
    · refine ⟨⟨when_, interval, repeats⟩, ?_, rfl, rfl, fun _ => Or.inl ⟨none, rfl⟩, ?_⟩
      · show (specs ++ [_])[s.numCreated]? = _
        rw [length, List.getElem?_concat_length]
      · intro passed
        have bound := inv.owned.sequence_le (inv.batch_live passed.1)
        exact absurd bound (Nat.not_succ_le_self _)
  · intro p member u found
    rcases deref_newTimer found with before | ⟨rfl, _⟩
    · exact timely.soon p member u before
    · have bound := inv.owned.sequence_le (inv.batch_live (inv.remaining_batch member))
      exact absurd bound (Nat.not_succ_le_self _)

/-- handleRead takes the timers that are due; none of them has been run yet. -/
theorem Timely.expired_step (inv : Invariant s) (timely : Timely specs s) (now : TimeStamp)
    (idle : s.phase = .idle) (phase : t.phase = .calling (s.due now) (s.due now) now)
    (heap : t.heap = s.heap) (created : t.created = s.created) (ran : t.ran = s.ran) :
    Timely specs t := by
  have deref (p : ActiveTimer) : t.deref p = s.deref p := deref_of_heap (congrFun heap p.1)
  have fresh (p : ActiveTimer) : ¬ t.Spent p := by
    rw [Spent, phase]
    exact fun passed => passed.2 passed.1
  have before (p : ActiveTimer) : ¬ s.Spent p := by
    rw [Spent, idle]
    exact fun passed => by cases passed.1
  apply timely.quiet created ran
  · intro p u found
    rw [deref p] at found
    exact timely.follows found (times_of_ran ran p.2) (iff_of_false (fresh p) (before p))
      fun passed => absurd passed (fresh p)
  · intro p member u found time clock
    rw [phase] at member clock
    rw [deref p] at found
    cases clock
    obtain ⟨_, v, there, bound⟩ := (inv.owned.mem_detached now p).mp member
    rw [found, Option.some.injEq] at there
    rwa [there]

theorem times_ran {p : Nat} {now : TimeStamp} (ran : t.ran = s.ran ++ [(p, now)]) (q : Nat) :
    t.times q = if q = p then s.times q ++ [now] else s.times q := by
  rw [times, times, ran, List.filter_append, List.map_append]
  by_cases same : q = p
  · rw [if_pos same, List.filter_cons_of_pos (by simpa using same.symm)]
    rfl
  · rw [if_neg same, List.filter_cons_of_neg (by simpa using Ne.symm same)]
    exact List.append_nil _

/-- The timer whose callback has been run is not among those that are still to be. -/
theorem spent_ran (inv : Invariant s) {entry : Entry} {rest expired : List Entry}
    {now : TimeStamp} (before : s.phase = .calling (entry :: rest) expired now)
    (after : t.phase = .calling rest expired now) :
    t.Spent entry.timer ∧ ∀ p, p ≠ entry.timer → (t.Spent p ↔ s.Spent p) := by
  have batch : t.phase.batch = s.phase.batch := by
    rw [before, after]
    rfl
  have remaining : s.phase.remaining = entry.timer :: t.phase.remaining := by
    rw [before, after]
    rfl
  constructor
  · have next : entry.timer ∈ s.phase.remaining := by
      rw [remaining]
      exact List.mem_cons_self
    have nodup := inv.batch_nodup
    rw [before] at nodup
    have tail := ((inv.suffix _ _ _ before).sublist.map Entry.timer).nodup nodup
    refine ⟨by rw [batch]; exact inv.remaining_batch next, ?_⟩
    rw [after]
    exact (List.nodup_cons.mp tail).1
  · intro p different
    rw [Spent, Spent, batch, remaining, List.mem_cons, not_or]
    exact and_congr_right fun _ => ⟨fun absent => ⟨different, absent⟩, fun both => both.2⟩

/-- The next callback is run: its timer has been waiting for a time that has come. -/
theorem Timely.ran_step (inv : Invariant s) (timely : Timely specs s) (entry : Entry)
    (rest expired : List Entry) (now : TimeStamp)
    (before : s.phase = .calling (entry :: rest) expired now)
    (after : t.phase = .calling rest expired now) (ran : t.ran = s.ran ++ [(entry.timer.2, now)])
    (heap : t.heap = s.heap) (created : t.created = s.created) : Timely specs t := by
  have deref (p : ActiveTimer) : t.deref p = s.deref p := deref_of_heap (congrFun heap p.1)
  have clock : t.phase.clock = some now ∧ s.phase.clock = some now := by
    rw [before, after]
    exact ⟨rfl, rfl⟩
  have remaining : s.phase.remaining = entry.timer :: t.phase.remaining := by
    rw [before, after]
    rfl
  have next : entry.timer ∈ s.phase.remaining := by
    rw [remaining]
    exact List.mem_cons_self
  have listed := inv.remaining_batch next
  have alive := inv.batch_live listed
  obtain ⟨u, found⟩ := alive.deref
  have come := timely.soon _ next u found now clock.2
  obtain ⟨spec, at_, follows⟩ := timely.live _ u found
  have awaits := follows.awaits fun passed => passed.2 next
  have positive := (inv.owned.numbered _ alive).1
  have bound := inv.owned.sequence_le alive
  obtain ⟨passed, others⟩ := spent_ran inv before after
  constructor
  · rw [numCreated, created]
    exact timely.made
  · intro q above
    rw [numCreated, created] at above
    replace above : s.numCreated < q := above
    rw [times_ran ran q, if_neg (by omega)]
    exact timely.unborn q above
  · intro i other there
    rw [times_ran ran (i + 1)]
    split
    · rename_i same
      have place : entry.timer.2 - 1 = i := by omega
      rw [place, there, Option.some.injEq] at at_
      rw [← at_, ← same] at awaits
      exact (timely.kept i other there).run awaits come
    · exact timely.kept i other there
  · intro p v here
    rw [deref p] at here
    by_cases same : p = entry.timer
    · subst same
      rw [found, Option.some.injEq] at here
      subst here
      refine ⟨spec, at_, follows.interval, follows.repeats, fun waits => absurd passed waits, ?_⟩
      intro _
      rw [times_ran ran, if_pos rfl, clock.1, List.getLast?_concat]
    · have number : p.2 ≠ entry.timer.2 := fun equal =>
        same (inv.owned.address_unique (Live.of_deref here) alive equal)
      exact timely.follows here (by rw [times_ran ran, if_neg number]) (others p same)
        fun _ => by rw [clock.1, clock.2]
  · intro p member v here time at_
    rw [deref p] at here
    rw [clock.1, ← clock.2] at at_
    exact timely.soon p (by rw [remaining]; exact List.mem_cons_of_mem _ member) v here time at_

/-- While reset goes on, the timers behind the one it has come to stay spent. -/
theorem spent_reset (inv : Invariant s) {entry : Entry} {rest : List Entry} {now : TimeStamp}
    (before : s.phase = .resetting (entry :: rest) now) (after : t.phase = .resetting rest now) :
    s.Spent entry.timer ∧ ¬ t.Spent entry.timer ∧
      ∀ p, p ≠ entry.timer → (t.Spent p ↔ s.Spent p) := by
  have nodup := inv.batch_nodup
  rw [before] at nodup
  unfold Spent
  rw [before, after]
  refine ⟨⟨List.mem_cons_self, List.not_mem_nil⟩, ?_, ?_⟩
  · exact fun passed => (List.nodup_cons.mp nodup).1 passed.1
  · intro p different
    simp only [Phase.batch, Phase.remaining, List.map_cons, List.mem_cons, different, false_or]

theorem Timely.settled_step (inv : Invariant s) (timely : Timely specs s) (entry : Entry)
    (rest : List Entry) (now : TimeStamp) (before : s.phase = .resetting (entry :: rest) now)
    (after : t.phase = .resetting rest now) (created : t.created = s.created) (ran : t.ran = s.ran)
    (deref : ∀ p u, t.deref p = some u → s.deref p = some u ∧ p ≠ entry.timer) :
    Timely specs t := by
  obtain ⟨_, _, others⟩ := spent_reset inv before after
  apply timely.quiet created ran
  · intro p u found
    obtain ⟨there, different⟩ := deref p u found
    exact timely.follows there (times_of_ran ran p.2) (others p different) fun _ => by
      rw [before, after]
      rfl
  · intro p member
    rw [after] at member
    cases member

/-- A timer goes back into the sets an interval after the time it has been run at. -/
theorem Timely.repeated_step (inv : Invariant s) (timely : Timely specs s) (entry : Entry)
    (rest : List Entry) (now : TimeStamp) (u : Timer)
    (before : s.phase = .resetting (entry :: rest) now) (found : s.deref entry.timer = some u)
    (repeats : u.repeat_ = true) (after : t.phase = .resetting rest now)
    (created : t.created = s.created) (ran : t.ran = s.ran)
    (deref : ∀ p v, t.deref p = some v →
      p = entry.timer ∧ v = u.restart now ∨ p ≠ entry.timer ∧ s.deref p = some v) :
    Timely specs t := by
  obtain ⟨passed, gone, others⟩ := spent_reset inv before after
  apply timely.quiet created ran
  · intro p v there
    rcases deref p v there with ⟨rfl, rfl⟩ | ⟨different, old⟩
    · obtain ⟨spec, listed, follows⟩ := timely.live _ u found
      obtain ⟨again, interval⟩ := Timer.restart_interval u now
      have last := follows.spent passed
      rw [before, ← times_of_ran ran] at last
      refine ⟨spec, listed, by rw [interval, follows.interval], by rw [again, follows.repeats],
        fun _ => Or.inr ⟨by rw [follows.repeats, repeats], now, last, ?_⟩,
        fun spent => absurd spent gone⟩
      rw [Timer.restart_expiration u now repeats, follows.interval]
    · exact timely.follows old (times_of_ran ran p.2) (others p different) fun _ => by
        rw [before, after]
        rfl
  · intro p member
    rw [after] at member
    cases member

/-- Outside the callbacks the phase changes without a change of what is spent. -/
theorem Timely.phase_step (timely : Timely specs s) (created : t.created = s.created)
    (ran : t.ran = s.ran) (heap : t.heap = s.heap) (batch : t.phase.batch = s.phase.batch)
    (before : s.phase.remaining = []) (after : t.phase.remaining = [])
    (clock : t.phase.batch = [] ∨ t.phase.clock = s.phase.clock) : Timely specs t := by
  have deref (p : ActiveTimer) : t.deref p = s.deref p := deref_of_heap (congrFun heap p.1)
  apply timely.quiet created ran
  · intro p u found
    rw [deref p] at found
    refine timely.follows found (times_of_ran ran p.2) (by rw [Spent, Spent, batch, before, after])
      fun passed => clock.resolve_left fun none => ?_
    rw [Spent, none] at passed
    cases passed.1
  · intro p member
    rw [after] at member
    cases member

theorem Moved.timely {label : Label} (inv : Invariant s) (timely : Timely specs s)
    (moved : Moved s label t) (other : label.spec = none) : Timely specs t := by
  cases moved with
  | made => cases other
  | added | noted | ignored | alarm => exact timely.same rfl rfl rfl fun _ _ there => there
  | cancelled p u =>
      refine timely.same rfl rfl rfl fun q v there => ?_
      exact (deref_freed there).1
  | expired now idle => exact timely.expired_step inv now idle rfl rfl rfl rfl
  | ran entry rest expired now phase =>
      exact timely.ran_step inv entry rest expired now phase rfl rfl rfl rfl
  | ended expired now phase =>
      exact timely.phase_step rfl rfl rfl (by rw [phase]; rfl) (by rw [phase]; rfl) rfl
        (Or.inr (by rw [phase]; rfl))
  | repeated entry rest now u phase found repeats =>
      have sequence : (u.restart now).sequence = entry.timer.2 := by
        rw [Timer.restart_sequence, ((deref_eq_some s _ u).mp found).2]
      refine timely.repeated_step inv entry rest now u phase found repeats rfl rfl rfl
        fun p v there => ?_
      exact deref_restarted_cases sequence there
  | settled entry rest now phase =>
      refine timely.settled_step inv entry rest now phase rfl rfl rfl fun p u there => ?_
      exact deref_freed there
  | rearmed now phase =>
      exact timely.phase_step rfl rfl rfl (by rw [phase]; rfl) (by rw [phase]; rfl) rfl
        (Or.inl rfl)

end Steps

theorem specs_append (labels : List Label) (label : Label) :
    specs (labels ++ [label]) = specs labels ++ label.spec.toList := by
  rw [specs, specs, List.filterMap_append, List.filterMap_cons]
  cases label.spec with
  | none => rfl
  | some spec => rfl

theorem create_timely : Timely [] create where
  made := rfl
  unborn _ _ := rfl
  kept i spec listed := by cases listed
  live p t found := by cases found
  soon p member := by cases member

/-- Along every run each Timer keeps to what it was made for. -/
theorem run_timely {labels : List Label} {s : TimerQueue} (run : machine.Run create labels s) :
    Timely (specs labels) s := by
  induction run with
  | nil => exact create_timely
  | @snoc labels s t label front enabled stepped timely =>
      have inv := run_invariant front
      obtain ⟨u, done, moved⟩ := next_moved s inv label enabled
      obtain rfl : u = t := Option.some.inj (done.symm.trans stepped)
      rw [specs_append]
      cases made : label.spec with
      | none =>
          rw [Option.toList_none, List.append_nil]
          exact moved.timely inv timely made
      | some spec =>
          cases moved with
          | made address when_ interval repeats =>
              cases made
              exact timely.made_step inv address when_ interval repeats
          | _ => cases made

section Expired

variable {s t : TimerQueue} {held : List ActiveTimer}

theorem Owned.due_iff (owned : Owned s held) (now : TimeStamp) (entry : Entry) :
    entry ∈ s.due now ↔ s.Queued entry ∧ entry.expiration ≤ now := by
  rw [owned.mem_due now entry, Queued, owned.keyed, and_assoc]

theorem Owned.queued_detached (owned : Owned s held) (now : TimeStamp) (entry : Entry) :
    (s.detached now).Queued entry ↔ s.Queued entry ∧ now < entry.expiration := by
  show (s.timers.dropBelow _).find _ = _ ↔ _
  rw [OrderedMap.find_dropBelow]
  apply and_congr_right
  intro queued
  have active := ((owned.keyed _ _).mp queued).1
  have bounded := owned.addressed _ ((owned.live _).mpr (Or.inr active))
  rw [key_lt_sentry _ _ _ bounded, not_le]

theorem due_sorted (s : TimerQueue) (now : TimeStamp) :
    (s.due now).Pairwise fun e f => e.expiration ≤ f.expiration := by
  rw [due, List.pairwise_map]
  apply (OrderedMap.below_sorted s.timers _).imp
  intro e f less
  rcases Prod.Lex.lt_iff.mp less with earlier | ⟨same, _⟩
  · exact le_of_lt earlier
  · exact le_of_eq same

theorem Owned.due_sequences (owned : Owned s held) (now : TimeStamp) :
    ((s.due now).map fun entry => entry.timer.2).Nodup := by
  have nodup := owned.due_nodup now
  have live : ∀ p ∈ (s.due now).map Entry.timer, s.Live p := fun p member =>
    (owned.live p).mpr (Or.inr ((owned.mem_detached now p).mp member).1)
  have numbers := nodup.map_on fun p left q right =>
    owned.address_unique (live p left) (live q right)
  rwa [List.map_map] at numbers

/-- Outside its first step handleRead runs the callbacks that it has taken and no others. -/
theorem Moved.ran_kept {label : Label} (moved : Moved s label t)
    (other : ∀ now, label ≠ .handleRead now) :
    t.ran ++ t.phase.toRun = s.ran ++ s.phase.toRun := by
  cases moved with
  | expired now => exact absurd rfl (other now)
  | ran entry rest expired now phase =>
      rw [phase, List.append_assoc]
      rfl
  | ended expired now phase =>
      rw [phase]
      rfl
  | repeated entry rest now u phase =>
      rw [phase]
      rfl
  | settled entry rest now phase =>
      rw [phase]
      rfl
  | rearmed now phase =>
      rw [phase]
      rfl
  | made | added | cancelled | noted | ignored | alarm => rfl

theorem run_ran_kept {labels more : List Label} {u : TimerQueue}
    (reached : machine.Run create labels t) (run : machine.Run t more u)
    (others : ∀ now, .handleRead now ∉ more) :
    u.ran ++ u.phase.toRun = t.ran ++ t.phase.toRun := by
  induction run with
  | nil => rfl
  | @snoc more v u label front enabled stepped ih =>
      have inv := run_invariant (reached.append front)
      obtain ⟨w, done, moved⟩ := next_moved v inv label enabled
      obtain rfl : w = u := Option.some.inj (done.symm.trans stepped)
      rw [moved.ran_kept fun now same => others now (by simp [same])]
      exact ih fun now member => others now (List.mem_append_left _ member)

/-- handleRead can be carried to its end from wherever it is. -/
theorem exists_run_idle (inv : Invariant s) :
    ∃ more u, machine.Run s more u ∧ (∀ now, .handleRead now ∉ more) ∧ u.phase = .idle := by
  have lower (u : TimerQueue) (known : Invariant u) (busy : u.phase.toDo ≠ 0) :
      ∃ label v, (∀ now, label ≠ .handleRead now) ∧ machine.enabled u label ∧
        machine.step u label = some v ∧ Invariant v ∧ v.phase.toDo < u.phase.toDo := by
    obtain ⟨label, v, own, enabled, done, moved, _, less⟩ := handleRead_goes_on u known busy
    exact ⟨label, v, own, enabled, done, moved.invariant known, less⟩
  obtain ⟨more, u, run, own, _, none⟩ :=
    exists_run_lowered (fun u : TimerQueue => u.phase.toDo) lower inv
  exact ⟨more, u, run, fun now member => own _ member now rfl, (Phase.toDo_eq_zero _).mp none⟩

end Expired

/-- getExpired takes the entries whose time has come, in the order of their times, and leaves
the others. handleRead runs each of these once, and nothing else until it is called again;
whatever the callbacks do, it can be carried to its end.
Over a whole run a Timer is not run before its time, one that does not repeat is run at most
once, and between two runs of one that does its interval goes by on the clock of handleRead. -/
theorem timers_expire (labels : List Label) (s : TimerQueue) (run : machine.Run create labels s) :
    (∀ now, ∃ r expired, s.getExpired now = some (r, expired) ∧
      (∀ entry, entry ∈ expired ↔ s.Queued entry ∧ entry.expiration ≤ now) ∧
      (expired.Pairwise fun e f => e.expiration ≤ f.expiration) ∧
      (∀ entry, r.Queued entry ↔ s.Queued entry ∧ now < entry.expiration) ∧
      (expired.map fun entry => entry.timer.2).Nodup ∧
      (s.phase = .idle → ∃ t, s.handleRead now = some t ∧ ∀ more u, machine.Run t more u →
        (∀ time, .handleRead time ∉ more) →
        u.ran <+: s.ran ++ expired.map (fun entry => (entry.timer.2, now)) ∧
        (u.phase = .idle → u.ran = s.ran ++ expired.map fun entry => (entry.timer.2, now)) ∧
        ∃ rest v, machine.Run u rest v ∧ (∀ time, .handleRead time ∉ rest) ∧
          v.phase = .idle)) ∧
    ∀ (i : Nat) (spec : TimerSpec), (specs labels)[i]? = some spec →
      (spec.repeats = false → (s.times (i + 1)).length ≤ 1 ∧
        ∀ time ∈ s.times (i + 1), spec.when_ ≤ time) ∧
      (spec.repeats = true →
        (s.times (i + 1)).IsChain fun earlier later => earlier + spec.interval ≤ later) := by
  have inv := run_invariant run
  constructor
  · intro now
    refine ⟨_, _, getExpired_spec s _ inv.owned now, inv.owned.due_iff now, due_sorted s now,
      inv.owned.queued_detached now, inv.owned.due_sequences now, fun idle => ?_⟩
    have done := handleRead_spec s _ inv.owned now
    refine ⟨_, done, fun more u onward others => ?_⟩
    have reached := run.snoc (show machine.enabled s (.handleRead now) from idle) done
    have kept := run_ran_kept reached onward others
    replace kept : u.ran ++ u.phase.toRun =
      s.ran ++ (s.due now).map fun entry => (entry.timer.2, now) := kept
    rw [← kept]
    refine ⟨List.prefix_append _ _, fun idle => ?_,
      exists_run_idle (run_invariant (reached.append onward))⟩
    rw [idle]
    exact (List.append_nil _).symm
  · intro i spec listed
    have kept := (run_timely run).kept i spec listed
    exact ⟨fun oneShot => ⟨kept.once oneShot, kept.not_before oneShot⟩, kept.spaced⟩

/-- The clock goes back between two runs of a repeating timer. -/
theorem timers_expire_backwards : ∃ s, machine.Run create
      [.newTimer 100 5 10 true, .addTimerInLoop (100, 1), .newTimer 200 6 0 false,
        .addTimerInLoop (200, 2), .alarm, .handleRead 7, .runNext, .runNext, .endCalling,
        .resetNext, .resetNext, .rearm, .alarm, .handleRead 3, .endCalling, .rearm, .handleRead 20,
        .runNext] s ∧
    s.ran = [(1, 7), (2, 7), (1, 20)] ∧ (s.times 2).length ≤ 1 ∧
    (s.times 1).IsChain fun earlier later => earlier + 10 ≤ later := by
  obtain ⟨s, run, ran⟩ := exists_run_of_play machine create
    [.newTimer 100 5 10 true, .addTimerInLoop (100, 1), .newTimer 200 6 0 false,
      .addTimerInLoop (200, 2), .alarm, .handleRead 7, .runNext, .runNext, .endCalling,
      .resetNext, .resetNext, .rearm, .alarm, .handleRead 3, .endCalling, .rearm, .handleRead 20,
      .runNext] ran [(1, 7), (2, 7), (1, 20)] (by decide +kernel)
  obtain ⟨_, kept⟩ := timers_expire _ s run
  exact ⟨s, run, ran, ((kept 1 ⟨6, 0, false⟩ rfl).1 rfl).1, (kept 0 ⟨5, 10, true⟩ rfl).2 rfl⟩

end TimerQueue
end Tundra
