import Mathlib.Data.Int.Order.Basic
import Tundra.Net.TimerSteps

set_option autoImplicit false

/- Is the timerfd armed for the earliest timer? insert arms it when the new timer is the
earliest one, and reset when handleRead is done, unless the earliest time is not valid.
While handleRead runs, only timers with such times are covered: those in the sets before
expire later than now, and reset arms the timerfd for them. -/
namespace Tundra

open Library Machine

/-- The alarm is to come or to be read, and is not later than that. -/
def Timerfd.Covers (timerfd : Timerfd) (expiration : TimeStamp) : Prop :=
  ∃ alarm, timerfd.pending = some alarm ∧ alarm ≤ expiration

/-- The time handleRead has taken. -/
def Phase.clock : Phase → Option TimeStamp
  | .idle => none
  | .calling _ _ now | .resetting _ now => some now

theorem Timerfd.Covers.mono {timerfd : Timerfd} {e f : TimeStamp} (covers : timerfd.Covers e)
    (le : e ≤ f) : timerfd.Covers f := by
  obtain ⟨alarm, pending, bound⟩ := covers
  exact ⟨alarm, pending, le_trans bound le⟩

theorem Timerfd.covers_armed {e f : TimeStamp} (le : e ≤ f) : (Timerfd.armed e).Covers f :=
  ⟨e, rfl, le⟩

theorem Timer.restart_interval (t : Timer) (now : TimeStamp) :
    (t.restart now).repeat_ = t.repeat_ ∧ (t.restart now).interval = t.interval := by
  unfold Timer.restart
  split <;> exact ⟨rfl, rfl⟩

namespace TimerQueue

/-- The clock shows a time after the epoch. -/
def Timed (_ : TimerQueue) : Label → Prop
  | .handleRead now => 0 < now
  | _ => True

instance decidableTimed (s : TimerQueue) : (label : Label) → Decidable (s.Timed label)
  | .handleRead now => inferInstanceAs (Decidable (0 < now))
  | .newTimer _ _ _ _ | .addTimerInLoop _ | .cancelInLoop _ | .runNext | .endCalling | .resetNext
  | .rearm | .alarm => inferInstanceAs (Decidable True)

instance decidableAllowedTimed (s : TimerQueue) (label : Label) :
    Decidable ((machine.restrict Timed).enabled s label) :=
  inferInstanceAs (Decidable (s.Enabled label ∧ s.Timed label))

structure Alarmed (s : TimerQueue) : Prop where
  covered : ∀ k q, s.timers.find k = some q → s.phase = .idle ∨ (ofLex k).1 ≤ 0 →
    s.timerfd.Covers (ofLex k).1
  clock : ∀ now, s.phase.clock = some now → 0 < now
  intervals : ∀ a t, s.heap a = some t → t.repeat_ = true → 0 ≤ t.interval

/-- A timer ahead of all others. -/
theorem lt_of_earlier {s : TimerQueue} {e : TimeStamp} (early : s.earlier e = true)
    (k : TimeStamp ×ₗ Nat) (q : Nat) (found : s.timers.find k = some q) : e < (ofLex k).1 := by
  unfold earlier at early
  cases head : s.timers.first with
  | none =>
      rw [OrderedMap.find_of_first_none _ head k] at found
      cases found
  | some first =>
      rw [head] at early
      have least := OrderedMap.first_le s.timers first head k q found
      exact lt_of_lt_of_le (of_decide_eq_true early) (Prod.Lex.monotone_fst _ _ least)

theorem le_of_not_earlier {s : TimerQueue} {e : TimeStamp} (late : ¬ s.earlier e = true) :
    ∃ k q, s.timers.find k = some q ∧ (ofLex k).1 ≤ e := by
  unfold earlier at late
  cases head : s.timers.first with
  | none =>
      rw [head] at late
      exact absurd rfl late
  | some first =>
      rw [head] at late
      refine ⟨first.1, first.2, OrderedMap.find_of_first _ _ head, ?_⟩
      exact not_lt.mp fun less => late (decide_eq_true less)

/-- A heap in which one Timer has been made or changed. -/
theorem intervals_update {s : TimerQueue} (alarmed : Alarmed s) (a : Nat) (timer : Option Timer)
    (good : ∀ t, timer = some t → t.repeat_ = true → 0 ≤ t.interval) :
    ∀ b t, Function.update s.heap a timer b = some t → t.repeat_ = true → 0 ≤ t.interval := by
  intro b t found
  by_cases same : b = a
  · rw [same, Function.update_self] at found
    exact good t found
  · rw [Function.update_of_ne same] at found
    exact alarmed.intervals b t found

/-- insert in addTimerInLoop: either the alarm is moved ahead to the new timer, or the one
that is there covers it. -/
theorem Alarmed.added {s : TimerQueue} (alarmed : Alarmed s) (p : ActiveTimer) (e : TimeStamp)
    (k : TimeStamp ×ₗ Nat) (q : Nat)
    (found : (s.timers.insert (key e p) p.2).find k = some q)
    (due : s.phase = .idle ∨ (ofLex k).1 ≤ 0) :
    (if s.earlier e then .armed e else s.timerfd : Timerfd).Covers (ofLex k).1 := by
  by_cases same : key e p = k
  · have when_ : (ofLex k).1 = e := by
      rw [← same]
      rfl
    rw [when_]
    rw [when_] at due
    by_cases early : s.earlier e = true
    · rw [if_pos early]
      exact Timerfd.covers_armed (le_refl e)
    · rw [if_neg early]
      obtain ⟨first, r, there, le⟩ := le_of_not_earlier early
      exact (alarmed.covered first r there (due.imp id (le_trans le))).mono le
  · rw [OrderedMap.find_insert_of_ne _ _ same] at found
    by_cases early : s.earlier e = true
    · rw [if_pos early]
      exact Timerfd.covers_armed (le_of_lt (lt_of_earlier early k q found))
    · rw [if_neg early]
      exact alarmed.covered k q found due

/-- The end of reset: the alarm is set for the earliest timer, or covers it already. -/
theorem Alarmed.rearmed {s : TimerQueue} (alarmed : Alarmed s) (k : TimeStamp ×ₗ Nat) (q : Nat)
    (found : s.timers.find k = some q) :
    (match s.timers.first with
      | none => s.timerfd
      | some first =>
          if 0 < (ofLex first.1).1 then .armed (ofLex first.1).1
          else s.timerfd : Timerfd).Covers (ofLex k).1 := by
  cases head : s.timers.first with
  | none =>
      rw [OrderedMap.find_of_first_none _ head k] at found
      cases found
  | some first =>
      have least : (ofLex first.1).1 ≤ (ofLex k).1 :=
        Prod.Lex.monotone_fst _ _ (OrderedMap.first_le s.timers first head k q found)
      simp only
      by_cases valid : 0 < (ofLex first.1).1
      · rw [if_pos valid]
        exact Timerfd.covers_armed least
      · rw [if_neg valid]
        have stored := OrderedMap.find_of_first s.timers first head
        exact (alarmed.covered first.1 first.2 stored (Or.inr (not_lt.mp valid))).mono least

/-- A step within handleRead that leaves the alarm as it is, and adds no timer without a
valid time. -/
theorem Alarmed.busy {s t : TimerQueue} (alarmed : Alarmed s) {now : TimeStamp}
    (before : s.phase.clock = some now) (after : t.phase.clock = some now)
    (timers : ∀ k q, t.timers.find k = some q → (ofLex k).1 ≤ 0 → s.timers.find k = some q)
    (timerfd : t.timerfd = s.timerfd)
    (intervals : ∀ a u, t.heap a = some u → u.repeat_ = true → 0 ≤ u.interval) : Alarmed t := by
  refine ⟨?_, ?_, intervals⟩
  · intro k q there due
    have early : (ofLex k).1 ≤ 0 := by
      apply due.resolve_left
      intro idle
      rw [idle] at after
      cases after
    rw [timerfd]
    exact alarmed.covered k q (timers k q there early) (Or.inr early)
  · intro time clock
    rw [after, Option.some.injEq] at clock
    rw [← clock]
    exact alarmed.clock now before

theorem Moved.alarmed {s t : TimerQueue} {label : Label} (moved : Moved s label t)
    (timed : s.Timed label) (alarmed : Alarmed s) : Alarmed t := by
  cases moved with
  | made address when_ interval repeats free bounded nonneg =>
      refine ⟨alarmed.covered, alarmed.clock, intervals_update alarmed _ _ ?_⟩
      rintro t ⟨⟩
      exact nonneg
  | added p t queued callable found =>
      exact ⟨alarmed.added p t.expiration, alarmed.clock, alarmed.intervals⟩
  | cancelled p t callable active found =>
      refine ⟨?_, alarmed.clock, intervals_update alarmed _ _ (by simp)⟩
      intro k q there due
      by_cases same : key t.expiration p = k
      · rw [← same] at there
        exact absurd ((OrderedMap.find_erase_self _ _).symm.trans there) (by simp)
      · exact alarmed.covered k q ((OrderedMap.find_erase_of_ne _ same).symm.trans there) due
  | noted | ignored => exact ⟨alarmed.covered, alarmed.clock, alarmed.intervals⟩
  | expired now idle =>
      have after : 0 < now := timed
      refine ⟨?_, ?_, alarmed.intervals⟩
      · intro k q there due
        obtain ⟨_, notBelow⟩ := (OrderedMap.find_dropBelow _ _ _ _).mp there
        have early : (ofLex k).1 ≤ 0 := due.resolve_left (by simp)
        have below : k < toLex (now, UINTPTR_MAX) :=
          Prod.Lex.lt_iff.mpr (Or.inl (lt_of_le_of_lt early after))
        exact absurd below notBelow
      · intro time clock
        cases clock
        exact after
  | ran entry rest expired now phase =>
      exact alarmed.busy (by rw [phase]; rfl) rfl (fun _ _ there _ => there) rfl alarmed.intervals
  | ended expired now phase =>
      exact alarmed.busy (by rw [phase]; rfl) rfl (fun _ _ there _ => there) rfl alarmed.intervals
  | repeated entry rest now t phase found repeats kept =>
      have before : s.phase.clock = some now := by rw [phase]; rfl
      have here := ((deref_eq_some s _ t).mp found).1
      have interval := alarmed.intervals _ t here repeats
      refine alarmed.busy before rfl ?_ rfl (intervals_update alarmed _ _ ?_)
      · intro k q there early
        by_cases same : key (now + t.interval) entry.timer = k
        · have when_ : (ofLex k).1 = now + t.interval := by
            rw [← same]
            rfl
          rw [when_] at early
          have later := Int.add_pos_of_pos_of_nonneg (alarmed.clock now before) interval
          exact absurd early (not_le.mpr later)
        · exact (OrderedMap.find_insert_of_ne _ _ same).symm.trans there
      · rintro u ⟨⟩
        rw [(Timer.restart_interval t now).1, (Timer.restart_interval t now).2]
        exact fun _ => interval
  | settled entry rest now phase =>
      exact alarmed.busy (by rw [phase]; rfl) rfl (fun _ _ there _ => there) rfl
        (intervals_update alarmed _ _ (by simp))
  | rearmed now phase =>
      refine ⟨fun k q there _ => alarmed.rearmed k q there, ?_, alarmed.intervals⟩
      rintro time ⟨⟩
  | alarm expiration armed =>
      refine ⟨?_, alarmed.clock, alarmed.intervals⟩
      intro k q there due
      obtain ⟨time, pending, bound⟩ := alarmed.covered k q there due
      rw [armed] at pending
      exact ⟨time, pending, bound⟩

theorem create_alarmed : Alarmed create where
  covered k q found := absurd found (by simp [create])
  clock now busy := absurd busy (by simp [create, Phase.clock])
  intervals a t found := absurd found (by simp [create])

/-- No alarm is lost: between two calls of the loop, with the clock after the epoch, the
timerfd has an alarm to come or to be read as long as there is a timer, and it is not later
than the earliest one. -/
theorem timerfd_covers (labels : List Label) (s : TimerQueue)
    (run : (machine.restrict Timed).Run create labels s) (idle : s.phase = .idle)
    (first : (TimeStamp ×ₗ Nat) × Nat) (earliest : s.timers.first = some first) :
    s.timerfd.Covers (ofLex first.1).1 := by
  have both : Invariant s ∧ Alarmed s := by
    apply run.invariant _ ⟨create_invariant, create_alarmed⟩
    rintro u label v ⟨inv, alarmed⟩ ⟨enabled, timed⟩ stepped
    obtain ⟨w, done, moved⟩ := next_moved u inv label enabled
    obtain rfl : w = v := Option.some.inj (done.symm.trans stepped)
    exact ⟨moved.invariant inv, moved.alarmed timed alarmed⟩
  have stored := OrderedMap.find_of_first s.timers first earliest
  exact both.2.covered first.1 first.2 stored (Or.inl idle)

/-- The callback of an expired timer adds one that has no valid time, and the timer repeats:
reset leaves the alarm that insert has set. -/
theorem timerfd_covers_invalid : ∃ s, (machine.restrict Timed).Run create
      [.newTimer 100 5 10 true, .addTimerInLoop (100, 1), .alarm, .handleRead 7, .runNext,
        .newTimer 200 0 0 false, .addTimerInLoop (200, 2), .endCalling, .resetNext, .rearm] s ∧
    s.timers.first = some (toLex (0, 200), 2) ∧ s.timerfd.Covers 0 := by
  obtain ⟨s, run, seen⟩ := exists_run_of_play (machine.restrict Timed) create
    [.newTimer 100 5 10 true, .addTimerInLoop (100, 1), .alarm, .handleRead 7, .runNext,
      .newTimer 200 0 0 false, .addTimerInLoop (200, 2), .endCalling, .resetNext, .rearm]
    (fun s => (s.phase, s.timers.first)) (.idle, some (toLex (0, 200), 2)) (by decide +kernel)
  rw [Prod.mk.injEq] at seen
  exact ⟨s, run, seen.2, timerfd_covers _ s run seen.1 _ seen.2⟩

end TimerQueue
end Tundra
