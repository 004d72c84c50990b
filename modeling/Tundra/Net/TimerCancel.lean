import Tundra.Net.TimerSteps

set_option autoImplicit false

/- Is a cancelled timer never run again? cancelInLoop looks for the timer in activeTimers_
and, while handleRead calls the expired ones, notes it for reset. It does not reach a timer
that handleRead has still to run, nor one whose addTimerInLoop is still queued. -/
namespace Tundra

open Library Machine

/-- The expired timers whose callbacks have not been started. -/
def Phase.remaining : Phase → List ActiveTimer
  | .calling remaining _ _ => remaining.map Entry.timer
  | .idle | .resetting _ _ => []

namespace TimerQueue

/-- A TimerId that addTimer has returned. -/
def Issued (s : TimerQueue) (p : ActiveTimer) : Prop :=
  0 < p.2 ∧ s.created[p.2 - 1]? = some p.1

/-- From here on the callback of the timer is not started, whatever happens. -/
def NeverStarted (s : TimerQueue) (p : ActiveTimer) : Prop :=
  ∀ more u, machine.Run s more u → ∀ started ∈ u.ran.drop s.ran.length, started.1 ≠ p.2

/-- Nobody is going to start the timer, and if reset is still to come to it, it is noted
there as cancelled. -/
structure Dead (s : TimerQueue) (p : ActiveTimer) : Prop where
  issued : s.Issued p
  waiting : p ∉ s.waiting
  inactive : p ∉ s.activeTimers
  remaining : p ∉ s.phase.remaining
  noted : p ∈ s.phase.batch → p ∈ s.cancelingTimers

theorem Issued.bound {s : TimerQueue} {p : ActiveTimer} (issued : s.Issued p) :
    p.2 ≤ s.numCreated := by
  obtain ⟨positive, at_⟩ := issued
  obtain ⟨below, _⟩ := List.getElem?_eq_some_iff.mp at_
  unfold numCreated
  omega

/-- A live Timer with the number of an issued TimerId is the one it was issued for. -/
theorem Issued.unique {s : TimerQueue} (inv : Invariant s) {p q : ActiveTimer}
    (issued : s.Issued p) (live : s.Live q) (same : q.2 = p.2) : q = p := by
  have address := (inv.owned.numbered q live).2
  rw [same, issued.2, Option.some.injEq] at address
  exact Prod.ext address.symm same

theorem Moved.issued {s t : TimerQueue} {label : Label} {p : ActiveTimer} (moved : Moved s label t)
    (issued : s.Issued p) : t.Issued p := by
  cases moved with
  | made address when_ interval repeats =>
      obtain ⟨positive, at_⟩ := issued
      obtain ⟨below, _⟩ := List.getElem?_eq_some_iff.mp at_
      refine ⟨positive, ?_⟩
      show (s.created ++ [address])[p.2 - 1]? = some p.1
      rw [List.getElem?_append_left below, at_]
  | added | cancelled | noted | ignored | expired | ran | ended | repeated | settled | rearmed
  | alarm => exact issued

/-- No step brings a dead timer back. -/
theorem Moved.dead {s t : TimerQueue} {label : Label} {p : ActiveTimer} (inv : Invariant s)
    (moved : Moved s label t) (dead : s.Dead p) : t.Dead p := by
  have issued := moved.issued dead.issued
  cases moved with
  | made address when_ interval repeats =>
      refine ⟨issued, ?_, dead.inactive, dead.remaining, dead.noted⟩
      intro member
      rcases List.mem_append.mp member with old | new
      · exact dead.waiting old
      · have bound := dead.issued.bound
        rw [List.mem_singleton.mp new] at bound
        exact absurd bound (Nat.not_succ_le_self _)
  | added q t queued callable found =>
      refine ⟨issued, fun member => dead.waiting (List.mem_of_mem_erase member), ?_,
        dead.remaining, dead.noted⟩
      intro member
      rcases Finset.mem_insert.mp member with rfl | old
      · exact dead.waiting queued
      · exact dead.inactive old
  | cancelled q t callable active found =>
      exact ⟨issued, dead.waiting, fun member => dead.inactive (Finset.mem_of_mem_erase member),
        dead.remaining, dead.noted⟩
  | noted q remaining expired now phase inactive =>
      exact ⟨issued, dead.waiting, dead.inactive, dead.remaining,
        fun member => Finset.mem_insert_of_mem (dead.noted member)⟩
  | ignored => exact dead
  | expired now idle =>
      have outside : p ∉ (s.due now).map Entry.timer := fun member =>
        dead.inactive ((inv.owned.mem_detached now p).mp member).1
      exact ⟨issued, dead.waiting, fun member => dead.inactive (Finset.mem_sdiff.mp member).1,
        outside, fun member => absurd member outside⟩
  | ran entry rest expired now phase =>
      have remaining := dead.remaining
      have noted := dead.noted
      rw [phase] at remaining noted
      exact ⟨issued, dead.waiting, dead.inactive,
        fun member => remaining (List.mem_cons_of_mem _ member), noted⟩
  | ended expired now phase =>
      have noted := dead.noted
      rw [phase] at noted
      exact ⟨issued, dead.waiting, dead.inactive, List.not_mem_nil, noted⟩
  | repeated entry rest now t phase found repeats kept =>
      have noted := dead.noted
      rw [phase] at noted
      refine ⟨issued, dead.waiting, ?_, List.not_mem_nil,
        fun member => noted (List.mem_cons_of_mem _ member)⟩
      intro member
      rcases Finset.mem_insert.mp member with rfl | old
      · exact kept (noted List.mem_cons_self)
      · exact dead.inactive old
  | settled entry rest now phase =>
      have noted := dead.noted
      rw [phase] at noted
      exact ⟨issued, dead.waiting, dead.inactive, List.not_mem_nil,
        fun member => noted (List.mem_cons_of_mem _ member)⟩
  | rearmed now phase =>
      exact ⟨issued, dead.waiting, dead.inactive, List.not_mem_nil,
        fun member => absurd member List.not_mem_nil⟩
  | alarm => exact ⟨issued, dead.waiting, dead.inactive, dead.remaining, dead.noted⟩

/-- What a step starts, it takes from those that remain. -/
theorem Moved.starts {s t : TimerQueue} {label : Label} (inv : Invariant s)
    (moved : Moved s label t) : t.ran = s.ran ∨
      ∃ q now, t.ran = s.ran ++ [(q.2, now)] ∧ q ∈ s.phase.remaining ∧ s.Live q := by
  cases moved with
  | ran entry rest expired now phase =>
      have listed := (inv.suffix _ _ _ phase).mem List.mem_cons_self
      have member : entry.timer ∈ s.phase.batch := by
        rw [phase]
        exact List.mem_map_of_mem listed
      refine Or.inr ⟨entry.timer, now, rfl, ?_, ?_⟩
      · rw [phase]
        exact List.mem_cons_self
      · exact (inv.owned.live _).mpr (Or.inl (List.mem_append_right _ member))
  | made | added | cancelled | noted | ignored | expired | ended | repeated | settled | rearmed
  | alarm => exact Or.inl rfl

/-- A dead timer is not started in any run. -/
theorem Dead.neverStarted {s : TimerQueue} {p : ActiveTimer} (inv : Invariant s)
    (dead : s.Dead p) : s.NeverStarted p := by
  intro more u run
  have whole : (Invariant u ∧ u.Dead p) ∧ s.ran <+: u.ran ∧
      ∀ started ∈ u.ran.drop s.ran.length, started.1 ≠ p.2 := by
    induction run with
    | nil =>
        refine ⟨⟨inv, dead⟩, List.prefix_rfl, ?_⟩
        rw [List.drop_length]
        exact fun started member => absurd member List.not_mem_nil
    | @snoc labels v w label front allowed stepped ih =>
        obtain ⟨⟨before, still⟩, longer, none⟩ := ih
        obtain ⟨x, done, moved⟩ := next_moved v before label allowed
        obtain rfl : x = w := Option.some.inj (done.symm.trans stepped)
        refine ⟨⟨moved.invariant before, moved.dead before still⟩, ?_⟩
        rcases moved.starts before with same | ⟨q, now, more, remains, live⟩
        · rw [same]
          exact ⟨longer, none⟩
        · rw [more]
          refine ⟨longer.trans (List.prefix_append _ _), ?_⟩
          rw [List.drop_append_of_le_length longer.length_le]
          intro started member
          rcases List.mem_append.mp member with old | new
          · exact none started old
          · rw [List.mem_singleton.mp new]
            intro same
            rw [still.issued.unique before live same] at remains
            exact still.remaining remains
  exact whole.2.2

/-- What is never started from a state is never started after a step from there. -/
theorem NeverStarted.step {s : TimerQueue} {p : ActiveTimer} (never : s.NeverStarted p)
    (inv : Invariant s) (label : Label) (enabled : s.Enabled label) :
    ∃ t, s.next label = some t ∧ Moved s label t ∧ Invariant t ∧ t.NeverStarted p := by
  obtain ⟨t, done, moved⟩ := next_moved s inv label enabled
  have shorter : s.ran.length ≤ t.ran.length := by
    rcases moved.starts inv with same | ⟨q, now, more, _⟩
    · rw [same]
    · rw [more, List.length_append]
      omega
  refine ⟨t, done, moved, moved.invariant inv, ?_⟩
  intro more u run started member
  exact never (label :: more) u (.cons enabled done run) started
    (List.drop_subset_drop_left u.ran shorter member)

theorem NeverStarted.not_remaining {s : TimerQueue} {p : ActiveTimer} (never : s.NeverStarted p)
    (inv : Invariant s) : p ∉ s.phase.remaining := by
  cases phase : s.phase with
  | idle => exact List.not_mem_nil
  | resetting => exact List.not_mem_nil
  | calling remaining expired now =>
      intro member
      induction remaining generalizing s with
      | nil => exact List.not_mem_nil member
      | cons entry rest ih =>
          have enabled : s.Enabled .runNext := ⟨_, _, _, _, phase⟩
          rcases List.mem_cons.mp member with rfl | later
          · obtain ⟨t, done, moved⟩ := next_moved s inv .runNext enabled
            cases moved with
            | ran first others batch when_ here =>
                cases phase.symm.trans here
                have run : machine.Run s [.runNext] _ := .single enabled done
                have last : (entry.timer.2, now) ∈
                    (s.ran ++ [(entry.timer.2, now)]).drop s.ran.length := by
                  rw [List.drop_left]
                  exact List.mem_singleton_self _
                exact never _ _ run _ last rfl
          · obtain ⟨t, _, moved, after, still⟩ := never.step inv .runNext enabled
            cases moved with
            | ran first others batch when_ here =>
                cases phase.symm.trans here
                exact ih still after rfl later

/-- handleRead comes to its end, and a timer in the sets stays there. -/
theorem NeverStarted.idle {s : TimerQueue} {p : ActiveTimer} (never : s.NeverStarted p)
    (inv : Invariant s) (active : p ∈ s.activeTimers) :
    ∃ t, Invariant t ∧ t.NeverStarted p ∧ p ∈ t.activeTimers ∧ t.phase = .idle := by
  have lower (u : TimerQueue) (known : Invariant u ∧ u.NeverStarted p ∧ p ∈ u.activeTimers)
      (busy : u.phase.toDo ≠ 0) : ∃ label v, True ∧ machine.enabled u label ∧
        machine.step u label = some v ∧ (Invariant v ∧ v.NeverStarted p ∧ p ∈ v.activeTimers) ∧
        v.phase.toDo < u.phase.toDo := by
    obtain ⟨before, waits, there⟩ := known
    obtain ⟨label, v, _, enabled, done, _, more, less⟩ := handleRead_goes_on u before busy
    obtain ⟨w, again, _, after, still⟩ := waits.step before label enabled
    obtain rfl : v = w := Option.some.inj (done.symm.trans again)
    exact ⟨label, v, trivial, enabled, done, ⟨after, still, more there⟩, less⟩
  obtain ⟨_, t, _, _, ⟨after, still, there⟩, none⟩ :=
    exists_run_lowered (fun u : TimerQueue => u.phase.toDo) lower ⟨inv, never, active⟩
  exact ⟨t, after, still, there, (Phase.toDo_eq_zero _).mp none⟩

/-- A timer in the sets can be started: handleRead may come when its time has come. -/
theorem NeverStarted.not_active {s : TimerQueue} {p : ActiveTimer} (never : s.NeverStarted p)
    (inv : Invariant s) : p ∉ s.activeTimers := by
  intro active
  obtain ⟨u, before, waits, there, idle⟩ := never.idle inv active
  obtain ⟨t, found⟩ := before.owned.active_live there
  have due : p ∈ (u.due t.expiration).map Entry.timer :=
    (before.owned.mem_detached t.expiration p).mpr ⟨there, t, found, le_refl _⟩
  obtain ⟨v, _, moved, after, still⟩ := waits.step before (.handleRead t.expiration) idle
  cases moved with
  | expired => exact still.not_remaining after due

theorem NeverStarted.not_waiting {s : TimerQueue} {p : ActiveTimer} (never : s.NeverStarted p)
    (inv : Invariant s) (callable : s.phase.callable = true) : p ∉ s.waiting := by
  intro queued
  obtain ⟨t, _, moved, after, still⟩ :=
    never.step inv (.addTimerInLoop p) ⟨queued, callable⟩
  cases moved with
  | added => exact still.not_active after (Finset.mem_insert_self p _)

/-- A cancel that does not find the timer among those to be run or to be added kills it. -/
theorem Moved.cancel_dead {s t : TimerQueue} {p : ActiveTimer} (inv : Invariant s)
    (moved : Moved s (.cancelInLoop p) t) (issued : s.Issued p) (waiting : p ∉ s.waiting)
    (remaining : p ∉ s.phase.remaining) : t.Dead p := by
  cases moved with
  | cancelled _ t callable active found =>
      have outside : p ∉ s.phase.batch := fun member =>
        inv.owned.apart p active (List.mem_append_right _ member)
      exact ⟨issued, waiting, fun member => (Finset.mem_erase.mp member).1 rfl, remaining,
        fun member => absurd member outside⟩
  | noted _ others expired now phase inactive =>
      exact ⟨issued, waiting, inactive, remaining, fun _ => Finset.mem_insert_self p _⟩
  | ignored _ idle inactive =>
      refine ⟨issued, waiting, inactive, remaining, fun member => ?_⟩
      rw [idle] at member
      exact absurd member List.not_mem_nil

/-- A cancel touches neither the queued calls nor the callbacks to come. -/
theorem Moved.cancel_frame {s t : TimerQueue} {p : ActiveTimer}
    (moved : Moved s (.cancelInLoop p) t) : t.waiting = s.waiting ∧ t.phase = s.phase := by
  cases moved <;> exact ⟨rfl, rfl⟩

/-- cancelInLoop with a TimerId that addTimer has returned is final, unless the timer is
one of the batch that handleRead has still to run, or its addTimerInLoop is still queued. -/
theorem cancel_final_iff (labels : List Label) (s t : TimerQueue) (p : ActiveTimer)
    (run : machine.Run create labels s) (issued : s.Issued p)
    (callable : s.phase.callable = true) (cancelled : s.cancelInLoop p = some t) :
    t.NeverStarted p ↔ p ∉ s.waiting ∧ p ∉ s.phase.remaining := by
  have inv := run_invariant run
  obtain ⟨u, done, moved⟩ := next_moved s inv (.cancelInLoop p) callable
  obtain rfl : u = t := Option.some.inj (done.symm.trans cancelled)
  have after := moved.invariant inv
  obtain ⟨waiting, phase⟩ := moved.cancel_frame
  constructor
  · intro never
    rw [← waiting, ← phase]
    rw [← phase] at callable
    exact ⟨never.not_waiting after callable, never.not_remaining after⟩
  · rintro ⟨outside, past⟩
    exact (moved.cancel_dead inv issued outside past).neverStarted after

/-- A timer that has run in this batch and repeats is cancelled for good. -/
theorem cancel_final_repeating : ∃ s t, machine.Run create
      [.newTimer 100 5 10 true, .addTimerInLoop (100, 1), .alarm, .handleRead 7, .runNext] s ∧
    s.cancelInLoop (100, 1) = some t ∧ t.NeverStarted (100, 1) := by
  obtain ⟨s, run, seen⟩ := exists_run_of_play machine create
    [.newTimer 100 5 10 true, .addTimerInLoop (100, 1), .alarm, .handleRead 7, .runNext]
    (fun s => (s.created, s.waiting, s.phase)) ([100], [], .calling [] [⟨5, 100, 1⟩] 7)
    (by decide +kernel)
  simp only [Prod.mk.injEq] at seen
  obtain ⟨created, waiting, phase⟩ := seen
  have callable : s.phase.callable = true := by rw [phase]; rfl
  obtain ⟨t, done, _⟩ := next_moved s (run_invariant run) (.cancelInLoop (100, 1)) callable
  refine ⟨s, t, run, done, (cancel_final_iff _ s t (100, 1) run ?_ callable done).mpr ?_⟩
  · rw [Issued, created]
    decide
  · rw [waiting, phase]
    decide

/-- Two timers expire together, and the callback of the first cancels the second: its
callback is started all the same. -/
theorem cancel_not_final : ¬ ∀ (labels : List Label) (s t : TimerQueue) (p : ActiveTimer),
    machine.Run create labels s → s.Issued p → s.phase.callable = true →
    s.cancelInLoop p = some t → t.NeverStarted p := by
  intro final
  obtain ⟨s, run, seen⟩ := exists_run_of_play machine create
    [.newTimer 100 5 10 true, .addTimerInLoop (100, 1), .newTimer 200 6 0 false,
      .addTimerInLoop (200, 2), .alarm, .handleRead 7, .runNext]
    (fun s => (s.created, s.phase.callable, (s.cancelInLoop (200, 2)).bind fun t : TimerQueue =>
      t.runNext.map fun u : TimerQueue => decide (u.ran = t.ran ++ [(2, 7)])))
    ([100, 200], true, some true) (by decide +kernel)
  simp only [Prod.mk.injEq, Option.bind_eq_some_iff, Option.map_eq_some_iff,
    decide_eq_true_iff] at seen
  obtain ⟨created, callable, t, cancelled, u, ran, started⟩ := seen
  have issued : s.Issued (200, 2) := by
    rw [Issued, created]
    decide
  have never := final _ s t (200, 2) run issued callable cancelled
  have enabled : t.Enabled .runNext := by
    unfold runNext at ran
    split at ran
    · rename_i phase
      exact ⟨_, _, _, _, phase⟩
    · cases ran
  have later : machine.Run t [.runNext] u := .single enabled ran
  refine never _ u later (2, 7) ?_ rfl
  rw [started, List.drop_left]
  exact List.mem_singleton_self _

end TimerQueue
end Tundra
