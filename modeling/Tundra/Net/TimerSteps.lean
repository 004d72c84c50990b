import Tundra.Net.TimerOwnership

set_option autoImplicit false

/- Every step of the loop's thread, and what holds between any two of them: the sets agree
and every Timer is in one place. -/
namespace Tundra

open Library Machine

/-- The steps that handleRead has still to take. -/
def Phase.toDo : Phase → Nat
  | .idle => 0
  | .calling remaining expired _ => remaining.length + expired.length + 2
  | .resetting remaining _ => remaining.length + 1

theorem Phase.toDo_eq_zero (phase : Phase) : phase.toDo = 0 ↔ phase = .idle := by
  cases phase with
  | idle => exact ⟨fun _ => rfl, fun _ => rfl⟩
  | calling | resetting => exact ⟨fun none => (by cases none), fun idle => (by cases idle)⟩

namespace TimerQueue

/-- The Timers outside the sets: in a queued call, or in the batch of handleRead. -/
def held (s : TimerQueue) : List ActiveTimer := s.waiting ++ s.phase.batch

/-- What holds whenever the loop's thread is between two steps. -/
structure Invariant (s : TimerQueue) : Prop where
  owned : Owned s s.held
  calling : s.callingExpiredTimers = true ↔
    ∃ remaining expired now, s.phase = .calling remaining expired now
  suffix : ∀ remaining expired now, s.phase = .calling remaining expired now →
    remaining <:+ expired

/-- All that the steps do from such a state. -/
inductive Moved (s : TimerQueue) : Label → TimerQueue → Prop
  | made (address : Nat) (when_ : TimeStamp) (interval : Int) (repeats : Bool)
      (free : s.heap address = none) (bounded : address < UINTPTR_MAX)
      (nonneg : repeats = true → 0 ≤ interval) :
      Moved s (.newTimer address when_ interval repeats) (s.newTimer address when_ interval repeats)
  | added (p : ActiveTimer) (t : Timer) (queued : p ∈ s.waiting)
      (callable : s.phase.callable = true) (found : s.deref p = some t) :
      Moved s (.addTimerInLoop p)
        { s with
          waiting := s.waiting.erase p
          timers := s.timers.insert (key t.expiration p) p.2
          activeTimers := Insert.insert p s.activeTimers
          timerfd := if s.earlier t.expiration then .armed t.expiration else s.timerfd }
  | cancelled (p : ActiveTimer) (t : Timer) (callable : s.phase.callable = true)
      (active : p ∈ s.activeTimers) (found : s.deref p = some t) :
      Moved s (.cancelInLoop p)
        (freed { s with
          timers := s.timers.erase (key t.expiration p)
          activeTimers := s.activeTimers.erase p } p)
  | noted (p : ActiveTimer) (remaining expired : List Entry) (now : TimeStamp)
      (phase : s.phase = .calling remaining expired now) (inactive : p ∉ s.activeTimers) :
      Moved s (.cancelInLoop p)
        { s with cancelingTimers := Insert.insert p s.cancelingTimers }
  | ignored (p : ActiveTimer) (idle : s.phase = .idle) (inactive : p ∉ s.activeTimers) :
      Moved s (.cancelInLoop p) s
  | expired (now : TimeStamp) (idle : s.phase = .idle) :
      Moved s (.handleRead now)
        { s with
          timers := s.timers.dropBelow (toLex (now, UINTPTR_MAX))
          activeTimers := s.activeTimers \ ((s.due now).map Entry.timer).toFinset
          timerfd := s.timerfd.read
          callingExpiredTimers := true
          cancelingTimers := ∅
          phase := .calling (s.due now) (s.due now) now }
  | ran (entry : Entry) (rest expired : List Entry) (now : TimeStamp)
      (phase : s.phase = .calling (entry :: rest) expired now) :
      Moved s .runNext
        { s with
          phase := .calling rest expired now
          ran := s.ran ++ [(entry.timer.2, now)] }
  | ended (expired : List Entry) (now : TimeStamp) (phase : s.phase = .calling [] expired now) :
      Moved s .endCalling
        { s with callingExpiredTimers := false, phase := .resetting expired now }
  | repeated (entry : Entry) (rest : List Entry) (now : TimeStamp) (t : Timer)
      (phase : s.phase = .resetting (entry :: rest) now) (found : s.deref entry.timer = some t)
      (repeats : t.repeat_ = true) (kept : entry.timer ∉ s.cancelingTimers) :
      Moved s .resetNext
        (entered (restarted { s with phase := .resetting rest now } entry.timer (t.restart now))
          entry.timer (now + t.interval))
  | settled (entry : Entry) (rest : List Entry) (now : TimeStamp)
      (phase : s.phase = .resetting (entry :: rest) now) :
      Moved s .resetNext (freed { s with phase := .resetting rest now } entry.timer)
  | rearmed (now : TimeStamp) (phase : s.phase = .resetting [] now) :
      Moved s .rearm
        { s with
          phase := .idle
          timerfd := match s.timers.first with
            | none => s.timerfd
            | some first =>
                if 0 < (ofLex first.1).1 then .armed (ofLex first.1).1 else s.timerfd }
  | alarm (expiration : TimeStamp) (armed : s.timerfd = .armed expiration) :
      Moved s .alarm { s with timerfd := .expired expiration }

theorem Owned.held_live {s : TimerQueue} {held : List ActiveTimer} (owned : Owned s held)
    {p : ActiveTimer} (member : p ∈ held) : ∃ t, s.deref p = some t :=
  ((owned.live p).mpr (Or.inl member)).deref

theorem Owned.active_live {s : TimerQueue} {held : List ActiveTimer} (owned : Owned s held)
    {p : ActiveTimer} (member : p ∈ s.activeTimers) : ∃ t, s.deref p = some t :=
  ((owned.live p).mpr (Or.inr member)).deref

theorem Owned.waiting {s : TimerQueue} {held : List ActiveTimer} (owned : Owned s held)
    (waiting : List ActiveTimer) : Owned { s with waiting := waiting } held :=
  owned.congr rfl rfl rfl rfl rfl

theorem addTimerInLoop_spec (s : TimerQueue) (held : List ActiveTimer) (owned : Owned s held)
    (p : ActiveTimer) (member : p ∈ held) (t : Timer) (found : s.deref p = some t) :
    s.addTimerInLoop p = some
      { s with
        waiting := s.waiting.erase p
        timers := s.timers.insert (key t.expiration p) p.2
        activeTimers := Insert.insert p s.activeTimers
        timerfd := if s.earlier t.expiration then .armed t.expiration else s.timerfd } := by
  rw [addTimerInLoop, insert_spec { s with waiting := s.waiting.erase p } held (owned.waiting _) p
    member t found, Option.bind_some]
  have still : (entered { s with waiting := s.waiting.erase p } p t.expiration).deref p =
      some t := found
  simp only [still, show ∀ e, earlier { s with waiting := s.waiting.erase p } e = s.earlier e from
    fun _ => rfl]
  by_cases early : s.earlier t.expiration = true
  · rw [if_pos early, if_pos early, Option.map_some]
    rfl
  · rw [if_neg early, if_neg early]
    rfl

theorem cancelInLoop_active (s : TimerQueue) (held : List ActiveTimer) (owned : Owned s held)
    (p : ActiveTimer) (active : p ∈ s.activeTimers) (t : Timer) (found : s.deref p = some t) :
    s.cancelInLoop p = some (freed { s with
      timers := s.timers.erase (key t.expiration p)
      activeTimers := s.activeTimers.erase p } p) := by
  have stored : s.timers.find (key t.expiration p) = some p.2 :=
    (owned.keyed t.expiration p).mpr ⟨active, t, found, rfl⟩
  have one : s.timers.count (key t.expiration p) = 1 := by
    rw [OrderedMap.count, stored]
    rfl
  have after := ((owned.left active found).freed List.mem_cons_self).sizesAgree
  rw [cancelInLoop, if_pos owned.sizesAgree, if_pos active, found, Option.bind_some, if_pos one,
    delete_spec { s with timers := s.timers.erase (key t.expiration p) } p (Live.of_deref found),
    Option.map_some, Option.bind_some]
  exact if_pos after

theorem cancelInLoop_inactive (s : TimerQueue) (held : List ActiveTimer) (owned : Owned s held)
    (p : ActiveTimer) (inactive : p ∉ s.activeTimers) :
    s.cancelInLoop p = some (if s.callingExpiredTimers then
      { s with cancelingTimers := Insert.insert p s.cancelingTimers } else s) := by
  have agree := owned.sizesAgree
  rw [cancelInLoop, if_pos agree, if_neg inactive]
  by_cases calling : s.callingExpiredTimers = true
  · rw [if_pos calling, if_pos calling, Option.bind_some]
    exact if_pos agree
  · rw [if_neg calling, if_neg calling, Option.bind_some, if_pos agree]

theorem handleRead_spec (s : TimerQueue) (held : List ActiveTimer) (owned : Owned s held)
    (now : TimeStamp) :
    s.handleRead now = some
      { s with
        timers := s.timers.dropBelow (toLex (now, UINTPTR_MAX))
        activeTimers := s.activeTimers \ ((s.due now).map Entry.timer).toFinset
        timerfd := s.timerfd.read
        callingExpiredTimers := true
        cancelingTimers := ∅
        phase := .calling (s.due now) (s.due now) now } := by
  have read : Owned { s with timerfd := s.timerfd.read } held :=
    owned.congr rfl rfl rfl rfl rfl
  rw [handleRead, getExpired_spec _ held read now]
  rfl

/-- The timer that reset comes to next is held, and the others stay so when it is settled. -/
theorem Owned.batch {s : TimerQueue} (owned : Owned s s.held) {entry : Entry} {rest : List Entry}
    {now : TimeStamp} (phase : s.phase = .resetting (entry :: rest) now) :
    entry.timer ∈ s.held ∧ s.held.erase entry.timer = s.waiting ++ rest.map Entry.timer ∧
      Owned { s with phase := .resetting rest now } s.held := by
  have whole : s.held = s.waiting ++ entry.timer :: rest.map Entry.timer := by
    rw [held, phase]
    rfl
  have nodup := owned.nodup
  rw [whole] at nodup ⊢
  have outside : entry.timer ∉ s.waiting := fun waiting =>
    (List.nodup_append.mp nodup).2.2 _ waiting _ List.mem_cons_self rfl
  refine ⟨List.mem_append_right _ List.mem_cons_self, ?_, ?_⟩
  · rw [List.erase_append_right _ outside, List.erase_cons_head]
  · rw [← whole]
    exact owned.congr rfl rfl rfl rfl rfl

/-- One pass of reset: a repeating timer that was not cancelled goes back into the sets, any
other one is deleted. -/
theorem resetNext_moved (s : TimerQueue) (inv : Invariant s) (entry : Entry) (rest : List Entry)
    (now : TimeStamp) (phase : s.phase = .resetting (entry :: rest) now) :
    ∃ t, s.resetNext = some t ∧ Moved s .resetNext t := by
  obtain ⟨member, _, moved⟩ := inv.owned.batch phase
  obtain ⟨t, found⟩ := inv.owned.held_live member
  have here : deref { s with phase := .resetting rest now } entry.timer = some t := found
  unfold resetNext
  rw [phase]
  simp only
  rw [here, Option.bind_some]
  split
  · rename_i again
    obtain ⟨ready, there⟩ := moved.restart member here now
    have inserted := insert_spec _ _ ready entry.timer member (t.restart now) there
    rw [t.restart_expiration now again.1] at inserted
    refine ⟨_, ?_, .repeated entry rest now t phase found again.1 again.2⟩
    exact congrArg (Option.map Prod.fst) inserted
  · refine ⟨_, delete_spec _ _ (Live.of_deref here), .settled entry rest now phase⟩

theorem rearm_moved (s : TimerQueue) (inv : Invariant s) (now : TimeStamp)
    (phase : s.phase = .resetting [] now) : ∃ t, s.rearm = some t ∧ Moved s .rearm t := by
  refine ⟨_, ?_, .rearmed now phase⟩
  unfold rearm
  rw [phase]
  simp only
  cases head : s.timers.first with
  | none => rfl
  | some first =>
      have stored := OrderedMap.find_of_first s.timers first head
      obtain ⟨_, t, found, when_⟩ :=
        (inv.owned.keyed (ofLex first.1).1 ((ofLex first.1).2, first.2)).mp stored
      have here : deref { s with phase := .idle } ((ofLex first.1).2, first.2) = some t := found
      simp only [here, Option.map_some, when_]
      split <;> rfl

/-- Every step that can come passes all assertions and follows no stale pointer. -/
theorem next_moved (s : TimerQueue) (inv : Invariant s) (label : Label)
    (enabled : s.Enabled label) : ∃ t, s.next label = some t ∧ Moved s label t := by
  cases label with
  | newTimer address when_ interval repeats =>
      obtain ⟨free, bounded, nonneg⟩ := enabled
      exact ⟨_, rfl, .made address when_ interval repeats free bounded nonneg⟩
  | addTimerInLoop p =>
      obtain ⟨queued, callable⟩ := enabled
      have member : p ∈ s.held := List.mem_append_left _ queued
      obtain ⟨t, found⟩ := inv.owned.held_live member
      exact ⟨_, addTimerInLoop_spec s _ inv.owned p member t found,
        .added p t queued callable found⟩
  | cancelInLoop p =>
      by_cases active : p ∈ s.activeTimers
      · obtain ⟨t, found⟩ := inv.owned.active_live active
        exact ⟨_, cancelInLoop_active s _ inv.owned p active t found,
          .cancelled p t enabled active found⟩
      · refine ⟨_, cancelInLoop_inactive s _ inv.owned p active, ?_⟩
        by_cases calling : s.callingExpiredTimers = true
        · obtain ⟨remaining, expired, now, phase⟩ := inv.calling.mp calling
          rw [if_pos calling]
          exact .noted p remaining expired now phase active
        · rw [if_neg calling]
          have idle : s.phase = .idle := by
            cases phase : s.phase with
            | idle => rfl
            | calling remaining expired now =>
                exact absurd (inv.calling.mpr ⟨_, _, _, phase⟩) calling
            | resetting remaining now =>
                rw [Enabled, phase] at enabled
                cases enabled
          exact .ignored p idle active
  | handleRead now => exact ⟨_, handleRead_spec s _ inv.owned now, .expired now enabled⟩
  | runNext =>
      obtain ⟨entry, rest, expired, now, phase⟩ := enabled
      have listed : entry ∈ expired := (inv.suffix _ _ _ phase).mem List.mem_cons_self
      have member : entry.timer ∈ s.held := by
        rw [held, phase]
        exact List.mem_append_right _ (List.mem_map_of_mem listed)
      obtain ⟨t, found⟩ := inv.owned.held_live member
      refine ⟨_, ?_, .ran entry rest expired now phase⟩
      show s.runNext = _
      unfold runNext
      rw [phase]
      simp only
      rw [found, Option.map_some, ((deref_eq_some s _ t).mp found).2]
  | endCalling =>
      obtain ⟨expired, now, phase⟩ := enabled
      refine ⟨_, ?_, .ended expired now phase⟩
      show s.endCalling = _
      unfold endCalling
      rw [phase]
  | resetNext =>
      obtain ⟨entry, rest, now, phase⟩ := enabled
      exact resetNext_moved s inv entry rest now phase
  | rearm =>
      obtain ⟨now, phase⟩ := enabled
      exact rearm_moved s inv now phase
  | alarm =>
      obtain ⟨expiration, armed⟩ := enabled
      refine ⟨_, ?_, .alarm expiration armed⟩
      unfold next
      rw [armed]

/-- handleRead takes its next step, whatever the callbacks have done in between. -/
theorem handleRead_goes_on (s : TimerQueue) (inv : Invariant s) (busy : s.phase.toDo ≠ 0) :
    ∃ label t, (∀ now, label ≠ .handleRead now) ∧ s.Enabled label ∧ s.next label = some t ∧
      Moved s label t ∧ s.activeTimers ⊆ t.activeTimers ∧ t.phase.toDo < s.phase.toDo := by
  -- the label follows from the phase, and the state from the label
  have taken (label : Label) (enabled : s.Enabled label) (own : ∀ now, label ≠ .handleRead now)
      (lower : ∀ t, Moved s label t →
        s.activeTimers ⊆ t.activeTimers ∧ t.phase.toDo < s.phase.toDo) :
      ∃ label t, (∀ now, label ≠ .handleRead now) ∧ s.Enabled label ∧ s.next label = some t ∧
        Moved s label t ∧ s.activeTimers ⊆ t.activeTimers ∧ t.phase.toDo < s.phase.toDo := by
    obtain ⟨t, done, moved⟩ := next_moved s inv label enabled
    exact ⟨label, t, own, enabled, done, moved, lower t moved⟩
  cases phase : s.phase with
  | idle =>
      rw [phase] at busy
      exact absurd rfl busy
  | calling remaining expired now =>
      rw [← phase]
      cases remaining with
      | nil =>
          refine taken .endCalling ⟨_, _, phase⟩ (fun _ same => by cases same) fun t moved => ?_
          cases moved with
          | ended others then_ here =>
              cases phase.symm.trans here
              rw [phase]
              exact ⟨Finset.Subset.refl _, by simp [Phase.toDo]⟩
      | cons entry rest =>
          refine taken .runNext ⟨_, _, _, _, phase⟩ (fun _ same => by cases same) fun t moved => ?_
          cases moved with
          | ran first behind others then_ here =>
              cases phase.symm.trans here
              rw [phase]
              exact ⟨Finset.Subset.refl _, by simp [Phase.toDo]⟩
  | resetting remaining now =>
      rw [← phase]
      cases remaining with
      | nil =>
          refine taken .rearm ⟨_, phase⟩ (fun _ same => by cases same) fun t moved => ?_
          cases moved with
          | rearmed =>
              rw [phase]
              exact ⟨Finset.Subset.refl _, Nat.lt_succ_self _⟩
      | cons entry rest =>
          refine taken .resetNext ⟨_, _, _, phase⟩ (fun _ same => by cases same) fun t moved => ?_
          cases moved with
          | repeated first behind then_ timer here =>
              cases phase.symm.trans here
              rw [phase]
              exact ⟨Finset.subset_insert _ _, Nat.lt_succ_self _⟩
          | settled first behind then_ here =>
              cases phase.symm.trans here
              rw [phase]
              exact ⟨Finset.Subset.refl _, Nat.lt_succ_self _⟩

theorem create_invariant : Invariant create := by
  have nobody : ∀ p, ¬ create.Live p := by
    rintro p ⟨t, found, _⟩
    cases found
  constructor
  · constructor
    · intro p
      have none : p ∉ create.held ∧ p ∉ create.activeTimers := by
        simp [held, Phase.batch, create]
      simp only [nobody p, none, or_self]
    · exact List.nodup_nil
    · intro p member
      cases member
    · intro p live
      exact absurd live (nobody p)
    · intro p live
      exact absurd live (nobody p)
    · intro e p
      simp [create]
    · rfl
    · exact List.nodup_nil
    · intro q
      simp only [create, numCreated, List.length_nil, List.not_mem_nil, false_iff]
      omega
  · simp [create]
  · simp [create]

/-- A step outside the callbacks of handleRead. -/
theorem Invariant.of_quiet {s : TimerQueue} (owned : Owned s s.held)
    (quiet : s.callingExpiredTimers = false)
    (phase : ∀ remaining expired now, s.phase ≠ .calling remaining expired now) : Invariant s where
  owned := owned
  calling := by
    constructor
    · intro calling
      rw [quiet] at calling
      cases calling
    · rintro ⟨remaining, expired, now, calling⟩
      exact absurd calling (phase _ _ _)
  suffix remaining expired now calling := absurd calling (phase _ _ _)

/-- A step that leaves handleRead where it is. -/
theorem Invariant.of_same {s t : TimerQueue} (inv : Invariant s) (owned : Owned t t.held)
    (calling : t.callingExpiredTimers = s.callingExpiredTimers) (phase : t.phase = s.phase) :
    Invariant t where
  owned := owned
  calling := by
    rw [calling, phase]
    exact inv.calling
  suffix := by
    rw [phase]
    exact inv.suffix

theorem Invariant.not_calling {s : TimerQueue} (inv : Invariant s)
    (phase : ∀ remaining expired now, s.phase ≠ .calling remaining expired now) :
    s.callingExpiredTimers = false := by
  rw [Bool.eq_false_iff]
  intro calling
  obtain ⟨remaining, expired, now, there⟩ := inv.calling.mp calling
  exact phase _ _ _ there

theorem Moved.invariant {s t : TimerQueue} {label : Label} (inv : Invariant s)
    (moved : Moved s label t) : Invariant t := by
  cases moved with
  | made address when_ interval repeats free bounded =>
      refine inv.of_same ?_ rfl rfl
      apply (newTimer_owned s _ inv.owned address when_ interval repeats free bounded).perm
      show ((address, s.numCreated + 1) :: (s.waiting ++ s.phase.batch)).Perm
        (s.waiting ++ [(address, s.numCreated + 1)] ++ s.phase.batch)
      rw [List.append_assoc, List.singleton_append]
      exact List.perm_middle.symm
  | added p t queued callable found =>
      refine inv.of_same ?_ rfl rfl
      have member : p ∈ s.held := List.mem_append_left _ queued
      have entered := inv.owned.entered member found
      rw [held, List.erase_append_left _ queued] at entered
      exact entered.congr rfl rfl rfl rfl rfl
  | cancelled p t callable active found =>
      refine inv.of_same ?_ rfl rfl
      have freed := (inv.owned.left active found).freed List.mem_cons_self
      rw [List.erase_cons_head] at freed
      exact freed
  | noted p remaining expired now phase inactive =>
      exact inv.of_same (inv.owned.congr rfl rfl rfl rfl rfl) rfl rfl
  | ignored p idle inactive => exact inv
  | expired now idle =>
      have before : s.held = s.waiting := by
        rw [held, idle]
        exact List.append_nil _
      have detached := inv.owned.detached now
      rw [before] at detached
      constructor
      · exact (detached.perm List.perm_append_comm).congr rfl rfl rfl rfl rfl
      · exact ⟨fun _ => ⟨_, _, _, rfl⟩, fun _ => rfl⟩
      · intro remaining expired then_ same
        cases same
        exact List.suffix_rfl
  | ran entry rest expired now phase =>
      constructor
      · have batch : s.phase.batch = expired.map Entry.timer := by rw [phase]; rfl
        have owned := inv.owned
        rw [held, batch] at owned
        exact owned.congr rfl rfl rfl rfl rfl
      · exact ⟨fun _ => ⟨_, _, _, rfl⟩, fun _ => inv.calling.mpr ⟨_, _, _, phase⟩⟩
      · intro remaining others then_ same
        cases same
        exact (List.suffix_cons entry rest).trans (inv.suffix _ _ _ phase)
  | ended expired now phase =>
      refine Invariant.of_quiet ?_ rfl (fun _ _ _ calling => by cases calling)
      have batch : s.phase.batch = expired.map Entry.timer := by rw [phase]; rfl
      have owned := inv.owned
      rw [held, batch] at owned
      exact owned.congr rfl rfl rfl rfl rfl
  | repeated entry rest now u phase found repeats kept =>
      obtain ⟨member, rest_, moved⟩ := inv.owned.batch phase
      have quiet : s.callingExpiredTimers = false := inv.not_calling (by simp [phase])
      obtain ⟨ready, there⟩ := moved.restart member found now
      have entered := ready.entered member there
      rw [u.restart_expiration now repeats, rest_] at entered
      exact Invariant.of_quiet entered quiet (fun _ _ _ calling => by cases calling)
  | settled entry rest now phase =>
      obtain ⟨member, rest_, moved⟩ := inv.owned.batch phase
      have quiet : s.callingExpiredTimers = false := inv.not_calling (by simp [phase])
      have freed := moved.freed member
      rw [rest_] at freed
      exact Invariant.of_quiet freed quiet (fun _ _ _ calling => by cases calling)
  | rearmed now phase =>
      have quiet : s.callingExpiredTimers = false := inv.not_calling (by simp [phase])
      have batch : s.phase.batch = [] := by rw [phase]; rfl
      have owned := inv.owned
      rw [held, batch] at owned
      exact Invariant.of_quiet (owned.congr rfl rfl rfl rfl rfl) quiet
        (fun _ _ _ calling => by cases calling)
  | alarm expiration armed => exact inv.of_same (inv.owned.congr rfl rfl rfl rfl rfl) rfl rfl

theorem run_invariant {labels : List Label} {s : TimerQueue} (run : machine.Run create labels s) :
    Invariant s := by
  apply run.invariant _ create_invariant
  intro u label v inv enabled stepped
  obtain ⟨w, done, moved⟩ := next_moved u inv label enabled
  obtain rfl : w = v := Option.some.inj (done.symm.trans stepped)
  exact moved.invariant inv

/-- Where a Timer can be, from its constructor on. -/
inductive Place
  | queued
  | sets
  | batch
  | deleted

/-- The pointer is to be found there; `deleted` notes the sequence number only. -/
def At (s : TimerQueue) (p : ActiveTimer) : Place → Prop
  | .queued => p ∈ s.waiting
  | .sets => p ∈ s.activeTimers
  | .batch => p ∈ s.phase.batch
  | .deleted => p.2 ∈ s.deleted

theorem Invariant.live_iff {s : TimerQueue} (inv : Invariant s) (p : ActiveTimer) :
    s.Live p ↔ s.At p .queued ∨ s.At p .batch ∨ s.At p .sets := by
  rw [inv.owned.live p, held, List.mem_append, or_assoc]
  rfl

/-- Nothing that is to be found in one place is to be found in another. -/
theorem Invariant.at_unique {s : TimerQueue} (inv : Invariant s) {p : ActiveTimer}
    {x y : Place} (left : s.At p x) (right : s.At p y) : x = y := by
  have dead : s.At p .deleted → ¬ s.Live p := fun gone =>
    ((inv.owned.gone p.2).mp gone).2 p.1
  have queued : s.At p .queued → s.At p .batch → False := fun waiting batch =>
    (List.nodup_append.mp inv.owned.nodup).2.2 p waiting p batch rfl
  have sets : s.At p .sets → s.At p .queued ∨ s.At p .batch → False := fun active outside =>
    inv.owned.apart p active (List.mem_append.mpr outside)
  have live := inv.live_iff p
  cases x <;> cases y <;> first | rfl | grind

/-- Every Timer made so far is in one place. -/
theorem Invariant.placed {s : TimerQueue} (inv : Invariant s) {p : ActiveTimer}
    (made : 0 < p.2 ∧ s.created[p.2 - 1]? = some p.1) : ∃! place, s.At p place := by
  have somewhere : ∃ place, s.At p place := by
    by_cases gone : p.2 ∈ s.deleted
    · exact ⟨.deleted, gone⟩
    · have alive : s.Live p := by
        by_contra dead
        apply gone
        refine (inv.owned.gone p.2).mpr ⟨⟨made.1, ?_⟩, ?_⟩
        · obtain ⟨below, _⟩ := List.getElem?_eq_some_iff.mp made.2
          unfold numCreated
          omega
        · intro a other
          have address := (inv.owned.numbered _ other).2
          rw [made.2, Option.some.injEq] at address
          have same : (a, p.2) = p := Prod.ext address.symm rfl
          rw [same] at other
          exact dead other
      rcases (inv.live_iff p).mp alive with queued | batch | sets
      · exact ⟨.queued, queued⟩
      · exact ⟨.batch, batch⟩
      · exact ⟨.sets, sets⟩
  obtain ⟨place, here⟩ := somewhere
  exact ⟨place, here, fun other there => inv.at_unique there here⟩

/-- timers_ and activeTimers_ hold the same Timers. -/
def SetsAgree (s : TimerQueue) : Prop :=
  (∀ e a, (s.timers.find (toLex (e, a))).isSome = true ↔
    ∃ t, s.heap a = some t ∧ t.expiration = e ∧ (a, t.sequence) ∈ s.activeTimers) ∧
  (∀ p ∈ s.activeTimers, s.Live p) ∧ s.timers.size = s.activeTimers.card

theorem Invariant.setsAgree {s : TimerQueue} (inv : Invariant s) : s.SetsAgree := by
  refine ⟨?_, fun p active => (inv.owned.live p).mpr (Or.inr active), inv.owned.sizes⟩
  intro e a
  constructor
  · intro present
    obtain ⟨q, stored⟩ := Option.isSome_iff_exists.mp present
    obtain ⟨active, t, found, when_⟩ := (inv.owned.keyed e (a, q)).mp stored
    obtain ⟨here, same⟩ := (deref_eq_some s _ t).mp found
    exact ⟨t, here, when_, same ▸ active⟩
  · rintro ⟨t, here, when_, active⟩
    have found : s.deref (a, t.sequence) = some t := (deref_eq_some s _ t).mpr ⟨here, rfl⟩
    have stored := (inv.owned.keyed e (a, t.sequence)).mpr ⟨active, t, found, when_⟩
    exact Option.isSome_iff_exists.mpr ⟨_, stored⟩

/-- What has been deleted stays so. A step runs at most one callback, of a Timer in the
batch of handleRead. -/
theorem Moved.deletes {s t : TimerQueue} {label : Label} (inv : Invariant s)
    (moved : Moved s label t) : s.deleted <+: t.deleted ∧
      (t.ran = s.ran ∨ ∃ p now, t.ran = s.ran ++ [(p.2, now)] ∧ s.At p .batch) := by
  cases moved with
  | cancelled | settled => exact ⟨List.prefix_append _ _, Or.inl rfl⟩
  | ran entry rest expired now phase =>
      refine ⟨List.prefix_rfl, Or.inr ⟨entry.timer, now, rfl, ?_⟩⟩
      have listed := (inv.suffix _ _ _ phase).mem List.mem_cons_self
      show entry.timer ∈ s.phase.batch
      rw [phase]
      exact List.mem_map_of_mem listed
  | made | added | noted | ignored | expired | ended | repeated | rearmed | alarm =>
      exact ⟨List.prefix_rfl, Or.inl rfl⟩

/-- Between any two steps of the loop, whatever the callbacks add and cancel: the sets agree,
each Timer has been deleted at most once and is in one place, and no step that comes next
fails an assertion or follows a pointer to a Timer that has been deleted. -/
theorem timers_owned (labels : List Label) (s : TimerQueue) (run : machine.Run create labels s) :
    s.SetsAgree ∧ s.deleted.Nodup ∧
    (∀ p : ActiveTimer, 0 < p.2 → s.created[p.2 - 1]? = some p.1 → ∃! place, s.At p place) ∧
    ∀ label, s.Enabled label → ∃ t, s.next label = some t ∧ s.deleted <+: t.deleted ∧
      (t.ran = s.ran ∨ ∃ p now, t.ran = s.ran ++ [(p.2, now)] ∧ s.At p .batch) := by
  have inv := run_invariant run
  refine ⟨inv.setsAgree, inv.owned.once, fun p positive made => inv.placed ⟨positive, made⟩, ?_⟩
  intro label enabled
  obtain ⟨t, done, moved⟩ := next_moved s inv label enabled
  exact ⟨t, done, moved.deletes inv⟩

/-- Two timers expire together. The callback of the repeating one cancels itself and the
other; its address is used again, and a TimerId left over from it cancels nothing. -/
theorem timers_owned_reused : ∃ s, machine.Run create
      [.newTimer 100 5 10 true, .addTimerInLoop (100, 1), .newTimer 200 6 0 false,
        .addTimerInLoop (200, 2), .alarm, .handleRead 7, .runNext, .cancelInLoop (100, 1),
        .cancelInLoop (200, 2), .runNext, .endCalling, .resetNext, .resetNext, .rearm,
        .newTimer 100 20 0 false, .addTimerInLoop (100, 3), .cancelInLoop (100, 1)] s ∧
    (s.activeTimers = {(100, 3)} ∧ s.deleted = [1, 2] ∧ s.ran = [(1, 7), (2, 7)]) ∧
    s.SetsAgree ∧ ∃! place, s.At (100, 1) place := by
  obtain ⟨s, run, seen⟩ := exists_run_of_play machine create
    [.newTimer 100 5 10 true, .addTimerInLoop (100, 1), .newTimer 200 6 0 false,
      .addTimerInLoop (200, 2), .alarm, .handleRead 7, .runNext, .cancelInLoop (100, 1),
      .cancelInLoop (200, 2), .runNext, .endCalling, .resetNext, .resetNext, .rearm,
      .newTimer 100 20 0 false, .addTimerInLoop (100, 3), .cancelInLoop (100, 1)]
    (fun s => (s.activeTimers, s.deleted, s.ran, s.created))
    ({(100, 3)}, [1, 2], [(1, 7), (2, 7)], [100, 200, 100]) (by decide +kernel)
  simp only [Prod.mk.injEq] at seen
  obtain ⟨active, deleted, ran, created⟩ := seen
  obtain ⟨agree, _, placed, _⟩ := timers_owned _ s run
  exact ⟨s, run, ⟨active, deleted, ran⟩, agree,
    placed (100, 1) (by decide) (by rw [created]; rfl)⟩

end TimerQueue
end Tundra
