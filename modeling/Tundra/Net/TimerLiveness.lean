import Tundra.Library.Execution
import Tundra.Net.TimerExpiry
import Tundra.Net.TimerThreads

set_option autoImplicit false

/- That the timers of net/TimerQueue run at some time, whatever threads add and cancel others:
the functors bring them into the sets, the alarm of the timerfd covers the earliest one, and
handleRead runs what it takes out. -/
namespace Tundra

open Library Machine

namespace TimerQueue

section

variable {s t : TimerQueue} {label : Label} {p : ActiveTimer}

/-- The step starts the callback of the timer. -/
def Starts (p : ActiveTimer) (s t : TimerQueue) : Prop := ∃ now, t.ran = s.ran ++ [(p.2, now)]

theorem Invariant.queued (inv : Invariant s) (active : p ∈ s.activeTimers) :
    ∃ e, s.Queued ⟨e, p⟩ := by
  obtain ⟨u, found⟩ := inv.owned.active_live active
  exact ⟨u.expiration, (inv.owned.keyed u.expiration p).mpr ⟨active, u, found, rfl⟩⟩

/-- An entry for another pointer, which is outside the sets, leaves it alone. -/
theorem Invariant.queued_insert (inv : Invariant s) {e f : TimeStamp} {q : ActiveTimer}
    (queued : s.Queued ⟨e, p⟩) (other : q ∈ s.held) :
    (s.timers.insert (key f q) q.2).find (key e p) = some p.2 := by
  have active := ((inv.owned.keyed e p).mp queued).1
  have different : key f q ≠ key e p := fun same =>
    inv.owned.elsewhere other active (key_inj.mp same).2.symm
  rw [OrderedMap.find_insert_of_ne _ _ different]
  exact queued

/-- handleRead takes the timers whose time has come. -/
theorem Invariant.expires (inv : Invariant s) {e now : TimeStamp} (queued : s.Queued ⟨e, p⟩)
    (come : e ≤ now) : p ∈ (s.due now).map Entry.timer :=
  List.mem_map_of_mem ((inv.owned.due_iff now ⟨e, p⟩).mpr ⟨queued, come⟩)

/-- An entry stays in timers_ until handleRead takes it, if it is not cancelled. -/
theorem Moved.queued (inv : Invariant s) (moved : Moved s label t)
    (uncancelled : label ≠ .cancelInLoop p) {e : TimeStamp} (queued : s.Queued ⟨e, p⟩) :
    t.Queued ⟨e, p⟩ ∨ p ∈ t.phase.remaining := by
  cases moved with
  | made | noted | ignored | ran | ended | settled | rearmed | alarm => exact Or.inl queued
  | added q u waiting =>
      exact Or.inl (inv.queued_insert queued (List.mem_append_left _ waiting))
  | cancelled q u callable active found =>
      left
      have different : key u.expiration q ≠ key e p := by
        intro same
        have mine := ((inv.owned.keyed e p).mp queued).1
        have equal := Live.unique ((inv.owned.live q).mpr (Or.inr active))
          ((inv.owned.live p).mpr (Or.inr mine)) (key_inj.mp same).2
        exact uncancelled (by rw [equal])
      exact (OrderedMap.find_erase_of_ne _ different).trans queued
  | expired now idle =>
      by_cases come : e ≤ now
      · exact Or.inr (inv.expires queued come)
      · exact Or.inl ((inv.owned.queued_detached now ⟨e, p⟩).mpr ⟨queued, not_le.mp come⟩)
  | repeated entry rest now u phase =>
      exact Or.inl (inv.queued_insert queued (inv.owned.batch phase).1)

/-- What handleRead has taken it runs. -/
theorem Moved.remaining (moved : Moved s label t) (member : p ∈ s.phase.remaining) :
    Starts p s t ∨ p ∈ t.phase.remaining := by
  cases moved with
  | made | added | cancelled | noted | alarm => exact Or.inr member
  | ignored => exact Or.inr member
  | expired now idle =>
      rw [idle] at member
      cases member
  | ran entry rest expired now phase =>
      rw [phase] at member
      rcases List.mem_cons.mp member with here | later
      · exact Or.inl ⟨now, by rw [here]⟩
      · exact Or.inr later
  | ended expired now phase =>
      rw [phase] at member
      cases member
  | repeated entry rest now u phase =>
      rw [phase] at member
      cases member
  | settled entry rest now phase =>
      rw [phase] at member
      cases member
  | rearmed now phase =>
      rw [phase] at member
      cases member

theorem Moved.uncancelled (moved : Moved s label t) (other : label ≠ .cancelInLoop p)
    (kept : p ∉ s.cancelingTimers) : p ∉ t.cancelingTimers := by
  cases moved with
  | noted q =>
      rw [Finset.mem_insert]
      rintro (same | noted)
      · exact other (by rw [same])
      · exact kept noted
  | expired => exact Finset.notMem_empty p
  | made | added | cancelled | ignored | ran | ended | repeated | settled | rearmed | alarm =>
      exact kept

/-- The timer repeats and is not to be deleted by reset. -/
structure Standing (p : ActiveTimer) (s : TimerQueue) : Prop where
  timer : ∃ u, s.deref p = some u ∧ u.repeat_ = true
  kept : p ∉ s.cancelingTimers

/-- reset puts it back into the sets. -/
theorem resetNext_standing (inv : Invariant s) {entry : Entry} {rest : List Entry}
    {now : TimeStamp} (phase : s.phase = .resetting (entry :: rest) now)
    (standing : Standing entry.timer s) (done : s.resetNext = some t) :
    entry.timer ∈ t.activeTimers := by
  obtain ⟨member, _, moved⟩ := inv.owned.batch phase
  obtain ⟨u, found, repeats⟩ := standing.timer
  have here : deref { s with phase := .resetting rest now } entry.timer = some u := found
  obtain ⟨ready, there⟩ := moved.restart member here now
  have inserted := insert_spec _ _ ready entry.timer member (u.restart now) there
  unfold resetNext at done
  rw [phase] at done
  simp only at done
  rw [here, Option.bind_some, if_pos ⟨repeats, standing.kept⟩] at done
  have same := (congrArg (Option.map Prod.fst) inserted).symm.trans done
  cases same
  exact Finset.mem_insert_self _ _

theorem Standing.live (standing : Standing p s) : s.Live p := by
  obtain ⟨u, found, _⟩ := standing.timer
  exact Live.of_deref found

/-- The batch of handleRead keeps a repeating timer until it is back in the sets. -/
theorem next_batch (inv : Invariant s) (enabled : s.Enabled label) (done : s.next label = some t)
    (standing : Standing p s) (member : p ∈ s.phase.batch) :
    p ∈ t.phase.batch ∨ p ∈ t.activeTimers := by
  obtain ⟨r, again, moved⟩ := next_moved s inv label enabled
  cases done.symm.trans again
  cases moved with
  | made | added | cancelled | noted | ignored | alarm => exact Or.inl member
  | expired now idle =>
      rw [idle] at member
      cases member
  | ran entry rest expired now phase =>
      rw [phase] at member
      exact Or.inl member
  | ended expired now phase =>
      rw [phase] at member
      exact Or.inl member
  | repeated entry rest now u phase =>
      rw [phase] at member
      rcases List.mem_cons.mp member with rfl | later
      · exact Or.inr (Finset.mem_insert_self _ _)
      · exact Or.inl later
  | settled entry rest now phase =>
      rw [phase] at member
      rcases List.mem_cons.mp member with rfl | later
      · exact Or.inr (resetNext_standing inv phase standing done)
      · exact Or.inl later
  | rearmed now phase =>
      rw [phase] at member
      cases member

theorem next_standing (inv : Invariant s) (enabled : s.Enabled label)
    (done : s.next label = some t) (uncancelled : label ≠ .cancelInLoop p)
    (standing : Standing p s) : Standing p t := by
  have alive := standing.live
  obtain ⟨r, again, moved⟩ := next_moved s inv label enabled
  cases done.symm.trans again
  refine ⟨?_, moved.uncancelled uncancelled standing.kept⟩
  -- a change to the heap concerns another Timer
  have other {r : TimerQueue} (q : ActiveTimer) (live : s.Live q) (different : p ≠ q)
      (u : Option Timer) (heap : r.heap = Function.update s.heap q.1 u) :
      ∃ u, r.deref p = some u ∧ u.repeat_ = true := by
    have address : p.1 ≠ q.1 := fun same => different (alive.unique live same)
    rw [deref_of_heap (t := r) (s := s) (by rw [heap, Function.update_of_ne address])]
    exact standing.timer
  cases moved with
  | added | noted | ignored | expired | ran | ended | rearmed | alarm => exact standing.timer
  | made address when_ interval repeats free =>
      rw [deref_of_heap (Function.update_of_ne (alive.not_free free) ..)]
      exact standing.timer
  | cancelled q u callable active found =>
      exact other q (Live.of_deref found) (fun same => uncancelled (by rw [same])) none rfl
  | repeated entry rest now u phase found repeats kept =>
      by_cases mine : p = entry.timer
      · subst mine
        have same : (u.restart now).sequence = entry.timer.2 := by
          rw [Timer.restart_sequence, ((deref_eq_some s _ u).mp found).2]
        refine ⟨u.restart now, deref_restarted s entry.timer _ same, ?_⟩
        rw [(u.restart_interval now).1]
        exact repeats
      · exact other entry.timer (Live.of_deref found) mine _ rfl
  | settled entry rest now phase =>
      obtain ⟨member, _, _⟩ := inv.owned.batch phase
      by_cases mine : p = entry.timer
      · subst mine
        have back := resetNext_standing inv phase standing done
        exact absurd member (inv.owned.apart _ back)
      · exact other entry.timer ((inv.owned.live _).mpr (Or.inl member)) mine none rfl

end

end TimerQueue

namespace TimerThreads

section

variable {τ : Type*}

/-- The step that the timers make. -/
def State.timerLabel (s : State τ) : Label τ → Option TimerQueue.Label
  | .newTimer _ address when_ interval repeats => some (.newTimer address when_ interval repeats)
  | .runInLoop none =>
      match s.calls none with
      | .made timer => some (.addTimerInLoop timer)
      | .outside | .handed _ => none
  | .cancel none timer => some (.cancelInLoop timer)
  | .runFunctor => s.functors.head?.bind Functor.label
  | .loop label => some label
  | .runInLoop (some _) | .cancel (some _) _ | .returnId _ | .queueInLoop | .swap => none

variable {s t : State τ} {label : Label τ} {p : ActiveTimer}

theorem run_follows {f : Functor} (ran : s.run f = some t)
    (enabled : ∀ label, f.label = some label → s.timers.Enabled label) :
    ∃ r, Follows s.timers f.label r ∧ t = { s with timers := r } := by
  cases f with
  | addTimerInLoop q =>
      obtain ⟨r, done, rfl⟩ := Option.map_eq_some_iff.mp ran
      exact ⟨r, ⟨enabled _ rfl, done⟩, rfl⟩
  | cancelInLoop q =>
      obtain ⟨r, done, rfl⟩ := Option.map_eq_some_iff.mp ran
      exact ⟨r, ⟨enabled _ rfl, done⟩, rfl⟩
  | other =>
      cases ran
      exact ⟨s.timers, rfl, rfl⟩

/-- The first functor finds the timers as it needs them. -/
theorem Invariant.functor (inv : Invariant s) {f : Functor} {rest : List Functor}
    (first : s.functors = f :: rest) (label : TimerQueue.Label) (made : f.label = some label) :
    s.timers.Enabled label := by
  have idle : s.timers.phase = .idle := inv.batch (by rw [first]; exact List.cons_ne_nil _ _)
  have callable : s.timers.phase.callable = true := by rw [idle]; rfl
  cases f with
  | addTimerInLoop q =>
      cases made
      have member : Functor.addTimerInLoop q ∈ s.queue := by
        rw [State.queue, first]
        exact List.mem_cons_self
      exact ⟨(inv.books.waiting q).mpr (Or.inr member), callable⟩
  | cancelInLoop q =>
      cases made
      exact callable
  | other => cases made

theorem timerLabel_handleRead {now : TimeStamp}
    (made : s.timerLabel label = some (.handleRead now)) : label = .loop (.handleRead now) := by
  cases label with
  | loop => rw [Option.some.inj made]
  | newTimer => cases made
  | returnId | queueInLoop | swap => cases made
  | runInLoop caller =>
      cases caller with
      | some => cases made
      | none =>
          simp only [State.timerLabel] at made
          split at made <;> cases made
  | cancel caller => cases caller <;> cases made
  | runFunctor =>
      obtain ⟨f, _, own⟩ := Option.bind_eq_some_iff.mp made
      cases f <;> cases own

theorem timerLabel_cancelInLoop (made : s.timerLabel label = some (.cancelInLoop p)) :
    (∃ caller, label = .cancel caller p) ∨ .cancelInLoop p ∈ s.queue ∨
      label = .loop (.cancelInLoop p) := by
  cases label with
  | loop => exact Or.inr (Or.inr (by rw [Option.some.inj made]))
  | newTimer => cases made
  | returnId | queueInLoop | swap => cases made
  | runInLoop caller =>
      cases caller with
      | some => cases made
      | none =>
          simp only [State.timerLabel] at made
          split at made <;> cases made
  | cancel caller =>
      cases caller with
      | some => cases made
      | none =>
          cases made
          exact Or.inl ⟨none, rfl⟩
  | runFunctor =>
      obtain ⟨f, first, own⟩ := Option.bind_eq_some_iff.mp made
      cases f with
      | cancelInLoop =>
          cases own
          exact Or.inr (Or.inl (List.mem_append_left _ (List.mem_of_head? first)))
      | addTimerInLoop | other => cases own

theorem Follows.moved {q r : TimerQueue} {label : TimerQueue.Label}
    (follows : Follows q (some label) r) (inv : q.Invariant) : TimerQueue.Moved q label r := by
  obtain ⟨u, done, moved⟩ := TimerQueue.next_moved q inv label follows.1
  cases follows.2.symm.trans done
  exact moved

variable [DecidableEq τ]

/-- All that the steps do. -/
inductive Acts (s : State τ) : Label τ → State τ → Prop
  | made (caller : Option τ) (address : Nat) (when_ : TimeStamp) (interval : Int) (repeats : Bool)
      (outside : s.calls caller = .outside)
      (enabled : s.timers.Enabled (.newTimer address when_ interval repeats)) :
      Acts s (.newTimer caller address when_ interval repeats)
        (({ s with timers := s.timers.newTimer address when_ interval repeats }).goto caller
          (.made (address, s.timers.numCreated + 1)))
  | entered (q : ActiveTimer) (r : TimerQueue) (call : s.calls none = .made q)
      (follows : Follows s.timers (some (.addTimerInLoop q)) r) :
      Acts s (.runInLoop none) { s.goto none (.handed q) with timers := r }
  | handed (c : τ) (q : ActiveTimer) (call : s.calls (some c) = .made q) :
      Acts s (.runInLoop (some c)) { s.goto (some c) (.handed q) with
        pendingFunctors := s.pendingFunctors ++ [.addTimerInLoop q] }
  | returned (caller : Option τ) (q id : ActiveTimer) (call : s.calls caller = .handed q) :
      Acts s (.returnId caller) (({ s with returned := s.returned ++ [id] }).goto caller .outside)
  | cancelled (q : ActiveTimer) (r : TimerQueue)
      (follows : Follows s.timers (some (.cancelInLoop q)) r) :
      Acts s (.cancel none q) { s with timers := r }
  | cancelling (c : τ) (q : ActiveTimer) : Acts s (.cancel (some c) q)
      { s with pendingFunctors := s.pendingFunctors ++ [.cancelInLoop q] }
  | queued : Acts s .queueInLoop { s with pendingFunctors := s.pendingFunctors ++ [.other] }
  | swapped (empty : s.functors = []) :
      Acts s .swap { s with functors := s.pendingFunctors, pendingFunctors := [] }
  | ran (f : Functor) (rest : List Functor) (r : TimerQueue) (first : s.functors = f :: rest)
      (follows : Follows s.timers f.label r) :
      Acts s .runFunctor { s with functors := rest, timers := r }
  | loop (label : TimerQueue.Label) (r : TimerQueue)
      (follows : Follows s.timers (some label) r) : Acts s (.loop label) { s with timers := r }

theorem next_acts (inv : Invariant s) (enabled : Enabled s label)
    (moved : next s label = some t) : Acts s label t := by
  cases label with
  | newTimer caller address when_ interval repeats =>
      cases moved
      exact .made caller address when_ interval repeats enabled.1 enabled.2.2
  | runInLoop caller =>
      cases call : s.calls caller with
      | outside | handed =>
          rw [next, call] at moved
          cases moved
      | made q =>
          rw [next, call] at moved
          cases caller with
          | some c =>
              cases moved
              exact .handed c q call
          | none =>
              obtain ⟨r, done, rfl⟩ := Option.map_eq_some_iff.mp moved
              have waits : s.timers.Enabled (.addTimerInLoop q) :=
                ⟨(inv.books.waiting q).mpr (Or.inl ⟨none, call⟩), enabled.2 rfl⟩
              exact .entered q r call ⟨waits, done⟩
  | returnId caller =>
      cases call : s.calls caller with
      | outside | made =>
          rw [next, call] at moved
          cases moved
      | handed q =>
          rw [next, call] at moved
          obtain ⟨u, _, rfl⟩ := Option.map_eq_some_iff.mp moved
          exact .returned caller q _ call
  | cancel caller q =>
      cases caller with
      | some c =>
          cases moved
          exact .cancelling c q
      | none =>
          obtain ⟨r, done, rfl⟩ := Option.map_eq_some_iff.mp moved
          exact .cancelled q r ⟨enabled.2.1 rfl, done⟩
  | queueInLoop =>
      cases moved
      exact .queued
  | swap =>
      cases moved
      exact .swapped enabled.1
  | runFunctor =>
      cases first : s.functors with
      | nil => exact absurd first enabled.1
      | cons f rest =>
          rw [next, first] at moved
          have ran : ({ s with functors := rest } : State τ).run f = some t := moved
          obtain ⟨r, follows, rfl⟩ := run_follows ran (inv.functor first)
          exact .ran f rest r first follows
  | loop label =>
      obtain ⟨r, done, rfl⟩ := Option.map_eq_some_iff.mp moved
      exact .loop label r ⟨enabled.2.1, done⟩

theorem Acts.timers (acts : Acts s label t) :
    Follows s.timers (s.timerLabel label) t.timers := by
  cases acts with
  | made caller address when_ interval repeats outside enabled => exact ⟨enabled, rfl⟩
  | entered q r call follows =>
      rw [State.timerLabel, call]
      exact follows
  | ran f rest r first follows =>
      rw [State.timerLabel, first]
      exact follows
  | cancelled q r follows => exact follows
  | loop label r follows => exact follows
  | handed | returned | cancelling | queued | swapped => rfl

/-- The functors run in their order, and new ones come behind the others. -/
theorem Acts.queue (acts : Acts s label t) :
    (label = .runFunctor ∧ ∃ f, s.queue = f :: t.queue ∧ s.timerLabel label = f.label) ∨
      label ≠ .runFunctor ∧ ∃ more, t.queue = s.queue ++ more ∧
        ∀ q, .cancelInLoop q ∈ more → ∃ c, label = .cancel c q := by
  have same (here : t.queue = s.queue) : ∃ more, t.queue = s.queue ++ more ∧
      ∀ q, .cancelInLoop q ∈ more → ∃ c, label = .cancel c q :=
    ⟨[], by rw [here, List.append_nil], fun q member => by cases member⟩
  cases acts with
  | ran f rest r first =>
      refine Or.inl ⟨rfl, f, ?_, by rw [State.timerLabel, first]; rfl⟩
      rw [State.queue, first]
      rfl
  | made | entered | returned | cancelled | loop => exact Or.inr ⟨by simp, same rfl⟩
  | handed c q call =>
      refine Or.inr ⟨by simp, [.addTimerInLoop q], (List.append_assoc ..).symm, ?_⟩
      intro r member
      cases List.mem_singleton.mp member
  | cancelling c q =>
      refine Or.inr ⟨by simp, [.cancelInLoop q], (List.append_assoc ..).symm, ?_⟩
      intro r member
      cases List.mem_singleton.mp member
      exact ⟨some c, rfl⟩
  | queued =>
      refine Or.inr ⟨by simp, [.other], (List.append_assoc ..).symm, ?_⟩
      intro r member
      cases List.mem_singleton.mp member
  | swapped empty =>
      refine Or.inr ⟨by simp, same ?_⟩
      rw [State.queue, State.queue, empty, List.append_nil, List.nil_append]

/-- A thread that has made its Timer passes it on. -/
theorem Acts.made_kept (acts : Acts s label t) {caller : Option τ}
    (made : s.calls caller = .made p) :
    t.calls caller = .made p ∨ s.timerLabel label = some (.addTimerInLoop p) ∨
      .addTimerInLoop p ∈ t.queue := by
  have update (c : Option τ) (call : Call) (different : caller ≠ c) :
      Function.update s.calls c call caller = .made p :=
    (Function.update_of_ne different ..).trans made
  cases acts with
  | cancelled | cancelling | queued | swapped | ran | loop => exact Or.inl made
  | made c address when_ interval repeats outside =>
      refine Or.inl (update c _ ?_)
      rintro rfl
      cases made.symm.trans outside
  | entered q r call =>
      by_cases mine : caller = none
      · cases mine
        cases made.symm.trans call
        right
        left
        rw [State.timerLabel, made]
      · exact Or.inl (update none _ mine)
  | handed c q call =>
      by_cases mine : caller = some c
      · cases mine
        cases made.symm.trans call
        right
        right
        exact List.mem_append_right _ (List.mem_append_right _ (List.mem_singleton_self _))
      · exact Or.inl (update (some c) _ mine)
  | returned c q id call =>
      refine Or.inl (update c _ ?_)
      rintro rfl
      cases made.symm.trans call

end

section

variable {τ : Type*} [DecidableEq τ]

/-- What the timers may expect: a thread that has made a Timer passes it on; the loop runs
functors and calls handleRead again and again, as long as functors wait and alarms are set
again and again; handleRead returns; and its clock is behind the epoch and goes past every
time. -/
structure Fair (e : Execution (machine τ) (created τ)) : Prop where
  callers : ∀ caller n, ∃ m ≥ n, ((e.state m).calls caller).isMade = false
  functors : (∀ n, ∃ m ≥ n, (e.state m).queue ≠ []) → ∀ n, ∃ m ≥ n, e.label m = some .runFunctor
  reads : (∀ n, ∃ m ≥ n, (e.state m).timers.timerfd.pending ≠ none) →
    ∀ n, ∃ m ≥ n, ∃ now, e.label m = some (.loop (.handleRead now))
  returns : ∀ n, ∃ m ≥ n, (e.state m).timers.phase = .idle
  clock : ∀ time, ∃ n, ∀ m ≥ n, ∀ now, e.label m = some (.loop (.handleRead now)) → time ≤ now
  epoch : ∀ m now, e.label m = some (.loop (.handleRead now)) → 0 < now

variable {e : Execution (machine τ) (created τ)} {p : ActiveTimer}

theorem Fair.known (fair : Fair e) (n : Nat) :
    Invariant (e.state n) ∧ (e.state n).timers.Alarmed := by
  refine e.kept (p := fun s => Invariant s ∧ s.timers.Alarmed) ?_ (Nat.zero_le n) ?_
  · rintro m label taken ⟨inv, alarmed⟩
    obtain ⟨enabled, moved⟩ := e.moves m label taken
    have follows := (next_acts inv enabled moved).timers
    refine ⟨(next_stepped inv enabled moved).invariant, ?_⟩
    cases made : (e.state m).timerLabel label with
    | none =>
        rw [made] at follows
        rw [show (e.state (m + 1)).timers = _ from follows]
        exact alarmed
    | some own =>
        rw [made] at follows
        refine (follows.moved inv.books.timers).alarmed ?_ alarmed
        cases own with
        | handleRead now =>
            rw [timerLabel_handleRead made] at taken
            exact fair.epoch m now taken
        | newTimer | addTimerInLoop | cancelInLoop | runNext | endCalling | resetNext | rearm
        | alarm => trivial
  · rw [e.begins]
    exact ⟨created_invariant, TimerQueue.create_alarmed⟩

/-- The callback of the timer is started. -/
def StartsAt (e : Execution (machine τ) (created τ)) (p : ActiveTimer) (n : Nat) : Prop :=
  TimerQueue.Starts p (e.state n).timers (e.state (n + 1)).timers

/-- Nobody cancels the timer. -/
def Uncancelled (e : Execution (machine τ) (created τ)) (p : ActiveTimer) : Prop :=
  ∀ n caller, e.label n ≠ some (.cancel caller p)

theorem Fair.uncancelled (fair : Fair e) (quiet : Uncancelled e p) (n : Nat) :
    .cancelInLoop p ∉ (e.state n).queue := by
  refine e.kept (p := fun s => .cancelInLoop p ∉ s.queue) ?_ (Nat.zero_le n) ?_
  · intro m label taken none member
    obtain ⟨enabled, moved⟩ := e.moves m label taken
    rcases (next_acts (fair.known m).1 enabled moved).queue with
      ⟨_, f, queue, _⟩ | ⟨_, more, queue, cancels⟩
    · rw [queue] at none
      exact none (List.mem_cons_of_mem _ member)
    · rw [queue] at member
      rcases List.mem_append.mp member with before | new
      · exact none before
      · obtain ⟨caller, same⟩ := cancels p new
        exact quiet m caller (taken.trans (congrArg some same))
  · rw [e.begins]
    exact List.not_mem_nil

/-- The timers rest, or make a step that does not cancel the timer. -/
theorem Fair.step (fair : Fair e) (quiet : Uncancelled e p) (n : Nat) :
    (e.state (n + 1)).timers = (e.state n).timers ∨
      ∃ own, own ≠ .cancelInLoop p ∧
        Follows (e.state n).timers (some own) (e.state (n + 1)).timers := by
  cases taken : e.label n with
  | none => exact Or.inl (congrArg State.timers (e.rests n taken))
  | some label =>
      obtain ⟨enabled, stepped⟩ := e.moves n label taken
      have follows := (next_acts (fair.known n).1 enabled stepped).timers
      cases made : (e.state n).timerLabel label with
      | none =>
          rw [made] at follows
          exact Or.inl follows
      | some own =>
          rw [made] at follows
          refine Or.inr ⟨own, ?_, follows⟩
          rintro rfl
          rcases timerLabel_cancelInLoop made with ⟨caller, rfl⟩ | queued | rfl
          · exact quiet n caller taken
          · exact fair.uncancelled quiet n queued
          · cases enabled.1

/-- Something about the timers that is over at some time is ended by a step of theirs. -/
theorem Fair.ending (fair : Fair e) (quiet : Uncancelled e p) {P : TimerQueue → Prop} {n m : Nat}
    (later : n ≤ m) (now : P (e.state n).timers) (then_ : ¬ P (e.state m).timers) :
    ∃ k ≥ n, ∃ own, own ≠ .cancelInLoop p ∧
      Follows (e.state k).timers (some own) (e.state (k + 1)).timers ∧
      P (e.state k).timers ∧ ¬ P (e.state (k + 1)).timers := by
  obtain ⟨k, label, from_, _, _, before, behind⟩ :=
    e.exists_step_ending (p := fun s => P s.timers) later now then_
  rcases fair.step quiet k with same | ⟨own, other, follows⟩
  · rw [same] at behind
    exact absurd before behind
  · exact ⟨k, from_, own, other, follows, before, behind⟩

/-- What handleRead has taken out is started. -/
theorem Fair.remaining_starts (fair : Fair e) (quiet : Uncancelled e p) {n : Nat}
    (member : p ∈ (e.state n).timers.phase.remaining) : ∃ m ≥ n, StartsAt e p m := by
  obtain ⟨m, later, idle⟩ := fair.returns n
  have gone : p ∉ (e.state m).timers.phase.remaining := by
    rw [idle]
    exact List.not_mem_nil
  obtain ⟨k, from_, label, _, follows, before, behind⟩ :=
    fair.ending quiet (P := fun q => p ∈ q.phase.remaining) later member gone
  have moved := follows.moved (fair.known k).1.books.timers
  exact ⟨k, from_, (moved.remaining before).resolve_right behind⟩

/-- A timer in the sets is taken out by handleRead: the alarm covers its time, and one day the
clock of handleRead is past that. -/
theorem Fair.active_expires (fair : Fair e) (quiet : Uncancelled e p) {n : Nat}
    (active : p ∈ (e.state n).timers.activeTimers) :
    ∃ m ≥ n, p ∈ (e.state m).timers.phase.remaining := by
  by_contra never
  obtain ⟨expiration, queued⟩ := (fair.known n).1.books.timers.queued active
  have stays (m : Nat) (later : n ≤ m) : (e.state m).timers.Queued ⟨expiration, p⟩ := by
    by_contra gone
    obtain ⟨k, from_, label, other, follows, before, behind⟩ :=
      fair.ending quiet (P := fun q => q.Queued ⟨expiration, p⟩) later queued gone
    have inv := (fair.known k).1.books.timers
    have taken := ((follows.moved inv).queued inv other before).resolve_left behind
    exact never ⟨k + 1, by omega, taken⟩
  have pending (k : Nat) : ∃ m ≥ k, (e.state m).timers.timerfd.pending ≠ none := by
    obtain ⟨m, later, idle⟩ := fair.returns (max n k)
    obtain ⟨alarm, set, _⟩ := (fair.known m).2.covered _ _ (stays m (by omega)) (Or.inl idle)
    exact ⟨m, by omega, by rw [set]; exact Option.some_ne_none alarm⟩
  obtain ⟨past, clock⟩ := fair.clock expiration
  obtain ⟨m, later, now, taken⟩ := fair.reads pending (max n past)
  have inv := (fair.known m).1
  have come := clock m (by omega) now taken
  obtain ⟨enabled, stepped⟩ := e.moves m _ taken
  have acts : Acts (e.state m) (.loop (.handleRead now)) (e.state (m + 1)) :=
    next_acts inv enabled stepped
  have moved : TimerQueue.Moved _ (.handleRead now) _ := Follows.moved acts.timers inv.books.timers
  refine never ⟨m + 1, by omega, ?_⟩
  generalize (e.state (m + 1)).timers = after at moved
  cases moved with
  | expired => exact inv.books.timers.expires (stays m (by omega)) come

/-- addTimerInLoop brings its timer into the sets. -/
theorem Fair.added_active (fair : Fair e) {n : Nat} {label : Label τ}
    (taken : e.label n = some label)
    (made : (e.state n).timerLabel label = some (.addTimerInLoop p)) :
    p ∈ (e.state (n + 1)).timers.activeTimers := by
  obtain ⟨enabled, stepped⟩ := e.moves n label taken
  have inv := (fair.known n).1
  have follows := (next_acts inv enabled stepped).timers
  rw [made] at follows
  have moved := follows.moved inv.books.timers
  generalize (e.state (n + 1)).timers = after at moved
  cases moved with
  | added => exact Finset.mem_insert_self _ _

/-- A Timer that has been made comes into the sets. -/
theorem Fair.waiting_enters (fair : Fair e) {n : Nat}
    (waits : p ∈ (e.state n).timers.waiting) :
    ∃ m ≥ n, p ∈ (e.state m).timers.activeTimers := by
  by_contra never
  have inactive (k : Nat) (later : n ≤ k) : p ∉ (e.state k).timers.activeTimers := fun active =>
    never ⟨k, later, active⟩
  have idle (k : Nat) (later : n ≤ k) (label : Label τ) (taken : e.label k = some label) :
      (e.state k).timerLabel label ≠ some (.addTimerInLoop p) := fun made =>
    inactive (k + 1) (by omega) (fair.added_active taken made)
  obtain ⟨m, after, queued⟩ : ∃ m ≥ n, .addTimerInLoop p ∈ (e.state m).queue := by
    rcases ((fair.known n).1.books.waiting p).mp waits with ⟨caller, made⟩ | queued
    · obtain ⟨m, later, free⟩ := fair.callers caller n
      have gone : (e.state m).calls caller ≠ .made p := by
        intro made
        rw [made] at free
        cases free
      obtain ⟨k, label, from_, _, taken, before, behind⟩ :=
        e.exists_step_ending (p := fun s => s.calls caller = .made p) later made gone
      obtain ⟨enabled, stepped⟩ := e.moves k label taken
      have kept := (next_acts (fair.known k).1 enabled stepped).made_kept before
      exact ⟨k + 1, by omega,
        (kept.resolve_left behind).resolve_left (idle k from_ label taken)⟩
    · exact ⟨n, le_rfl, queued⟩
  -- the functors in front of it are run one after the other
  have nearer (k : Nat) (later : m ≤ k) (label : Label τ) (taken : e.label k = some label)
      (here : .addTimerInLoop p ∈ (e.state k).queue) :
      .addTimerInLoop p ∈ (e.state (k + 1)).queue ∧
      (e.state (k + 1)).queue.idxOf (.addTimerInLoop p) ≤
        (e.state k).queue.idxOf (.addTimerInLoop p) ∧
      (label = .runFunctor → (e.state (k + 1)).queue.idxOf (.addTimerInLoop p) <
        (e.state k).queue.idxOf (.addTimerInLoop p)) := by
    obtain ⟨enabled, stepped⟩ := e.moves k label taken
    rcases (next_acts (fair.known k).1 enabled stepped).queue with
      ⟨_, f, queue, own⟩ | ⟨other, more, queue, _⟩
    · have different : f ≠ .addTimerInLoop p := by
        rintro rfl
        exact idle k (by omega) label taken own
      rw [queue] at here ⊢
      have less := List.idxOf_cons_ne (e.state (k + 1)).queue different
      rw [less]
      exact ⟨(List.mem_cons.mp here).resolve_left different.symm, by omega, by omega⟩
    · rw [queue, List.idxOf_append_of_mem here]
      exact ⟨List.mem_append_left _ here, le_rfl, fun mine => absurd mine other⟩
  have always (k : Nat) (later : m ≤ k) : .addTimerInLoop p ∈ (e.state k).queue := by
    by_contra gone
    obtain ⟨i, label, from_, _, taken, before, behind⟩ := e.exists_step_ending
      (p := fun s => .addTimerInLoop p ∈ s.queue) later queued gone
    exact behind (nearer i from_ label taken before).1
  have runs := fair.functors fun k =>
    ⟨max k m, by omega, List.ne_nil_of_mem (always _ (by omega))⟩
  obtain ⟨_, _, false⟩ := e.reaches (fun _ => False) (fun label => label = .runFunctor)
    (fun s => s.queue.idxOf (.addTimerInLoop p)) m
    (fun k later label taken _ => Or.inr (nearer k later label taken (always k later)).2.1)
    (fun k later label taken mine _ => Or.inr
      ((nearer k later label taken (always k later)).2.2 mine))
    (fun k _ => by
      obtain ⟨i, behind, taken⟩ := runs k
      exact ⟨i, behind, Or.inr ⟨_, taken, rfl⟩⟩)
  exact false

/-- reset brings a repeating timer back into the sets. -/
theorem Fair.batch_returns (fair : Fair e) (quiet : Uncancelled e p) {n : Nat}
    (standing : ∀ m ≥ n, (e.state m).timers.Standing p)
    (member : p ∈ (e.state n).timers.phase.batch) :
    ∃ m ≥ n, p ∈ (e.state m).timers.activeTimers := by
  obtain ⟨m, later, idle⟩ := fair.returns n
  have gone : p ∉ (e.state m).timers.phase.batch := by
    rw [idle]
    exact List.not_mem_nil
  obtain ⟨k, from_, label, _, ⟨enabled, done⟩, before, behind⟩ :=
    fair.ending quiet (P := fun q => p ∈ q.phase.batch) later member gone
  have kept := TimerQueue.next_batch (fair.known k).1.books.timers enabled done
    (standing k from_) before
  exact ⟨k + 1, by omega, kept.resolve_left behind⟩

theorem Fair.noted (fair : Fair e) (quiet : Uncancelled e p) (n : Nat) :
    p ∉ (e.state n).timers.cancelingTimers := by
  refine e.kept (p := fun s => p ∉ s.timers.cancelingTimers) ?_ (Nat.zero_le n) ?_
  · intro m label taken before
    rcases fair.step quiet m with same | ⟨own, other, follows⟩
    · rw [same]
      exact before
    · exact (follows.moved (fair.known m).1.books.timers).uncancelled other before
  · rw [e.begins]
    exact Finset.notMem_empty p

theorem Fair.standing (fair : Fair e) (quiet : Uncancelled e p) {n m : Nat} (later : n ≤ m)
    (standing : (e.state n).timers.Standing p) : (e.state m).timers.Standing p := by
  refine e.kept (p := fun s => s.timers.Standing p) ?_ later standing
  intro k label taken before
  rcases fair.step quiet k with same | ⟨own, other, enabled, done⟩
  · rw [same]
    exact before
  · exact TimerQueue.next_standing (fair.known k).1.books.timers enabled done other before

theorem Fair.active_starts (fair : Fair e) (quiet : Uncancelled e p) {n : Nat}
    (active : p ∈ (e.state n).timers.activeTimers) : ∃ m ≥ n, StartsAt e p m := by
  obtain ⟨k, later, member⟩ := fair.active_expires quiet active
  obtain ⟨m, after, starts⟩ := fair.remaining_starts quiet member
  exact ⟨m, le_trans later after, starts⟩

theorem Fair.waiting_starts (fair : Fair e) (quiet : Uncancelled e p) {n : Nat}
    (waits : p ∈ (e.state n).timers.waiting) : ∃ m ≥ n, StartsAt e p m := by
  obtain ⟨k, later, active⟩ := fair.waiting_enters waits
  obtain ⟨m, after, starts⟩ := fair.active_starts quiet active
  exact ⟨m, le_trans later after, starts⟩

/-- A repeating timer is always in one of the places from which it is started. -/
theorem Fair.standing_starts (fair : Fair e) (quiet : Uncancelled e p) {n : Nat}
    (standing : (e.state n).timers.Standing p) : ∃ m ≥ n, StartsAt e p m := by
  rcases ((fair.known n).1.books.timers.owned.live p).mp standing.live with held | active
  · rcases List.mem_append.mp held with waits | batch
    · exact fair.waiting_starts quiet waits
    · obtain ⟨k, later, active⟩ := fair.batch_returns quiet
        (fun m from_ => fair.standing quiet from_ standing) batch
      obtain ⟨m, after, starts⟩ := fair.active_starts quiet active
      exact ⟨m, le_trans later after, starts⟩
  · exact fair.active_starts quiet active

/-- In every endless run with any number of threads in which the loop and the clock go on: a
timer that is made by whatever thread, and not cancelled, is started at some time, and again
and again if it repeats. -/
theorem timer_fires (e : Execution (machine τ) (created τ)) (fair : Fair e) (n : Nat)
    (caller : Option τ) (address : Nat) (when_ : TimeStamp) (interval : Int) (repeats : Bool)
    (taken : e.label n = some (.newTimer caller address when_ interval repeats))
    (p : ActiveTimer) (timer : p = (address, (e.state n).timers.numCreated + 1))
    (quiet : Uncancelled e p) :
    (∃ m > n, StartsAt e p m) ∧ (repeats = true → ∀ k, ∃ m ≥ k, StartsAt e p m) := by
  subst timer
  have made : (e.state (n + 1)).timers =
      (e.state n).timers.newTimer address when_ interval repeats := by
    rw [← Option.some.inj (e.moves n _ taken).2]
    rfl
  constructor
  · refine fair.waiting_starts quiet ?_
    rw [made]
    exact List.mem_append_right _ (List.mem_singleton_self _)
  · intro again k
    have standing : (e.state (n + 1)).timers.Standing
        (address, (e.state n).timers.numCreated + 1) := by
      refine ⟨?_, fair.noted quiet (n + 1)⟩
      rw [made]
      exact ⟨⟨when_, interval, repeats, _⟩,
        (TimerQueue.deref_eq_some _ _ _).mpr ⟨Function.update_self .., rfl⟩, again⟩
    obtain ⟨m, after, starts⟩ := fair.standing_starts quiet
      (fair.standing quiet (Nat.le_max_left (n + 1) k) standing)
    exact ⟨m, le_trans (Nat.le_max_right _ _) after, starts⟩

/-- A thread adds a timer, which the loop runs and deletes; nothing else happens. -/
def fired : List (Label Unit) :=
  [.newTimer (some ()) 100 5 0 false, .runInLoop (some ()), .returnId (some ()), .swap,
    .runFunctor, .loop .alarm, .loop (.handleRead 7), .loop .runNext, .loop .endCalling,
    .loop .resetNext, .loop .rearm]

theorem timer_fires_once :
    ∃ e : Execution (machine Unit) (created Unit), Fair e ∧ Uncancelled e (100, 1) ∧
      e.label 0 = some (.newTimer (some ()) 100 5 0 false) ∧ ∃ m > 0, StartsAt e (100, 1) m := by
  obtain ⟨t, run, ended⟩ := (machine Unit).exists_run_of_play (created Unit) fired
    (fun s => (s.calls none, s.calls (some ()), s.queue, s.timers.timerfd.pending, s.timers.phase))
    (.outside, .outside, [], none, .idle) (by decide +kernel)
  simp only [Prod.mk.injEq] at ended
  obtain ⟨own, other, queue, pending, idle⟩ := ended
  obtain ⟨e, last, again, _, steps⟩ := exists_stopping run
  have among (n : Nat) (label : Label Unit) (taken : e.label n = some label) : label ∈ fired :=
    List.mem_of_getElem? ((steps n).symm.trans taken)
  have fair : Fair e := by
    refine ⟨?_, ?_, ?_, ?_, ?_, ?_⟩
    · intro caller n
      obtain ⟨m, later, same⟩ := again n
      refine ⟨m, later, ?_⟩
      rw [same]
      rcases caller with _ | _
      · rw [own]
        rfl
      · rw [other]
        rfl
    · intro waits
      obtain ⟨m, later, some⟩ := waits fired.length
      rw [last m later] at some
      exact absurd queue some
    · intro sets
      obtain ⟨m, later, some⟩ := sets fired.length
      rw [last m later] at some
      exact absurd pending some
    · intro n
      obtain ⟨m, later, same⟩ := again n
      exact ⟨m, later, by rw [same, idle]⟩
    · intro time
      refine ⟨fired.length, fun m later now taken => ?_⟩
      rw [steps, List.getElem?_eq_none later] at taken
      cases taken
    · intro m now taken
      have member := among m _ taken
      simp only [fired, List.mem_cons, Label.loop.injEq, TimerQueue.Label.handleRead.injEq,
        reduceCtorEq, List.not_mem_nil, or_false, false_or] at member
      rw [member]
      decide
  have quiet : Uncancelled e (100, 1) := by
    intro n caller taken
    have member := among n _ taken
    simp only [fired, List.mem_cons, reduceCtorEq, List.not_mem_nil, or_self] at member
  have first : e.label 0 = some (.newTimer (some ()) 100 5 0 false) := steps 0
  refine ⟨e, fair, quiet, first, ?_⟩
  exact (timer_fires e fair 0 (some ()) 100 5 0 false first (100, 1)
    (by rw [e.begins]; rfl) quiet).1

end

end TimerThreads

end Tundra
