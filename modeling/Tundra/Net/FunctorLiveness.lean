import Mathlib.Data.List.Basic
import Tundra.Library.Execution
import Tundra.Net.EventLoop

set_option autoImplicit false

/- That no functor waits for ever in net/EventLoop, if the threads go on and user code
returns. A poll with nothing to report may last for ever, so this rests on the wakeups. -/
namespace Tundra.EventLoop

open Library Library.Machine

variable {τ : Type*}

/-- The steps of the loop thread outside user code. -/
def Onward : Label τ → Prop
  | .callLoop | .enterPoll | .pollReturns _ | .handleRead | .doPendingFunctors | .swap
  | .runFunctor | .finish => True
  | .exitLoop | .loopPush | .loopWakeup | .loopQuit | .foreignPush _ | .foreignQuit _
  | .foreignWakeup _ => False

/-- The loop thread has nothing to wait for: poll finds the wakeup channel readable, and
user code is outside queueInLoop. -/
def Ready (s : State τ) : Prop :=
  match s.phase with
  | .idle | .loopTest | .swapping => True
  | .poll => 0 < s.counter
  | .handling _ pushed | .calling pushed => pushed = false

/-- How far the loop thread is from its next swap. -/
def toSwap (s : State τ) : Nat :=
  match s.phase with
  | .swapping => 1
  | .handling false _ => 2
  | .handling true _ => 3
  | .poll => 4
  | .loopTest => 5
  | .idle => 6
  | .calling _ => s.functors.length + 6

/-- How far a functor is from its execution. -/
def toRun (f : Nat) (s : State τ) : Nat :=
  if f ∈ s.functors then s.functors.idxOf f else toSwap s + s.pendingFunctors.idxOf f

/-- A functor that has been pushed is done, or waits in the batch or in the queue. -/
theorem Invariant.place {s : State τ} (inv : Invariant s) {f : Nat} (pushed : f < s.pushes) :
    f ∈ s.executed ∨ f ∈ s.functors ∨ f ∈ s.pendingFunctors := by
  have member := List.mem_range.mpr pushed
  rw [inv.order] at member
  simpa only [List.mem_append, or_assoc] using member

/-- The functors behind it do not matter to a functor. -/
theorem toRun_congr {s t : State τ} {f : Nat} {more : List Nat}
    (functors : t.functors = s.functors)
    (pending : t.pendingFunctors = s.pendingFunctors ++ more) (swap : toSwap t = toSwap s)
    (waits : f ∈ s.functors ∨ f ∈ s.pendingFunctors) : toRun f t = toRun f s := by
  unfold toRun
  rw [functors, pending, swap]
  split
  · rfl
  · rename_i outside
    rw [List.idxOf_append_of_mem (waits.resolve_left outside)]

theorem toSwap_mark (phase : Phase) (pushed : Bool) (s t : State τ) (before : s.phase = phase)
    (behind : t.phase = phase.mark pushed) (functors : t.functors = s.functors) :
    toSwap t = toSwap s := by
  unfold toSwap
  rw [behind, before, functors]
  cases phase with
  | handling wakeup => cases wakeup <;> rfl
  | idle | loopTest | poll | swapping | calling => rfl

section

variable [DecidableEq τ] {s t : State τ} {label : Label τ} {f : Nat}

/-- The other threads and user code do not come between a functor and its execution. -/
theorem next_toRun_eq (waits : f ∈ s.functors ∨ f ∈ s.pendingFunctors) (running : s.quit = false)
    (other : ¬ Onward label) (enabled : Enabled s label) (moved : next s label = some t) :
    toRun f t = toRun f s := by
  have woken (inLoopThread : Bool) : (s.wakeIfNeeded inLoopThread).functors = s.functors ∧
      (s.wakeIfNeeded inLoopThread).pendingFunctors = s.pendingFunctors ++ [] ∧
      (s.wakeIfNeeded inLoopThread).phase = s.phase := by
    rw [State.wakeIfNeeded, List.append_nil]
    split
    · exact ⟨rfl, rfl, rfl⟩
    · exact ⟨rfl, rfl, rfl⟩
  cases label with
  | loopPush =>
      cases moved
      exact toRun_congr rfl rfl (toSwap_mark s.phase true s _ rfl rfl rfl) waits
  | loopWakeup =>
      cases moved
      obtain ⟨functors, pending, _⟩ := woken true
      exact toRun_congr functors pending (toSwap_mark s.phase false s _ rfl rfl functors) waits
  | loopQuit | foreignQuit =>
      cases moved
      exact toRun_congr rfl (List.append_nil _).symm rfl waits
  | foreignPush =>
      cases moved
      exact toRun_congr rfl rfl rfl waits
  | foreignWakeup =>
      cases moved
      obtain ⟨functors, pending, phase⟩ := woken false
      refine toRun_congr functors pending ?_ waits
      unfold toSwap
      simp only [State.setCaller, functors, phase]
  | exitLoop =>
      have quits := enabled.2
      rw [running] at quits
      cases quits
  | callLoop | enterPoll | pollReturns | handleRead | doPendingFunctors | swap | runFunctor
  | finish => exact absurd trivial other

/-- Each step of the loop thread brings a functor of the batch nearer to its execution. -/
theorem next_toRun_batch (inv : Invariant s) (batch : f ∈ s.functors) (onward : Onward label)
    (enabled : Enabled s label) (moved : next s label = some t) :
    f ∈ t.executed ∨ toRun f t < toRun f s := by
  obtain ⟨pushed, at_⟩ := inv.batch (List.ne_nil_of_mem batch)
  have elsewhere {phase : Phase} (here : s.phase = phase) : phase = .calling pushed :=
    here.symm.trans at_
  cases label with
  | runFunctor =>
      cases functors : s.functors with
      | nil => exact absurd functors enabled.2
      | cons first rest =>
          simp only [next, functors, Option.some.injEq] at moved
          subst moved
          rw [functors] at batch
          by_cases same : first = f
          · left
            simp [same]
          · right
            have later : f ∈ rest := (List.mem_cons.mp batch).resolve_left (Ne.symm same)
            rw [toRun, toRun, functors, if_pos later, if_pos batch,
              List.idxOf_cons_ne rest same]
            exact Nat.lt_succ_self _
  | finish =>
      rw [enabled.2] at batch
      cases batch
  | callLoop | handleRead | doPendingFunctors | swap => cases elsewhere enabled
  | enterPoll | pollReturns => cases elsewhere enabled.1
  | exitLoop | loopPush | loopWakeup | loopQuit | foreignPush | foreignQuit | foreignWakeup =>
      cases onward

/-- And a functor of the queue. -/
theorem next_toRun_queue (outside : f ∉ s.functors) (queued : f ∈ s.pendingFunctors)
    (onward : Onward label) (enabled : Enabled s label) (moved : next s label = some t) :
    toRun f t < toRun f s := by
  have waiting (u : State τ) (none : f ∉ u.functors)
      (pending : u.pendingFunctors = s.pendingFunctors) (nearer : toSwap u < toSwap s) :
      toRun f u < toRun f s := by
    rw [toRun, toRun, if_neg none, if_neg outside, pending]
    omega
  cases label with
  | swap =>
      have at_ : s.phase = .swapping := enabled
      cases moved
      rw [toRun, toRun, if_pos queued, if_neg outside, toSwap, at_]
      dsimp only
      omega
  | runFunctor =>
      obtain ⟨at_, _⟩ := enabled
      cases functors : s.functors with
      | nil =>
          rw [next, functors] at moved
          cases moved
      | cons first rest =>
          simp only [next, functors, Option.some.injEq] at moved
          subst moved
          rw [functors] at outside
          refine waiting _ (List.not_mem_of_not_mem_cons outside) rfl ?_
          simp only [toSwap, at_, functors, List.length_cons]
          omega
  | callLoop =>
      have at_ : s.phase = .idle := enabled
      cases moved
      refine waiting _ outside rfl ?_
      simp [toSwap, at_]
  | enterPoll =>
      cases moved
      refine waiting _ outside rfl ?_
      simp [toSwap, State.goto, enabled.1]
  | pollReturns wakeup =>
      cases moved
      refine waiting _ outside rfl ?_
      cases wakeup <;> simp [toSwap, State.goto, enabled.1]
  | handleRead =>
      have at_ : s.phase = .handling true false := enabled
      cases moved
      refine waiting _ outside rfl ?_
      simp [toSwap, at_]
  | doPendingFunctors =>
      have at_ : s.phase = .handling false false := enabled
      cases moved
      refine waiting _ outside rfl ?_
      simp [toSwap, at_]
  | finish =>
      cases moved
      refine waiting _ outside rfl ?_
      simp [toSwap, enabled.1, enabled.2]
  | exitLoop | loopPush | loopWakeup | loopQuit | foreignPush | foreignQuit | foreignWakeup =>
      cases onward

theorem next_pushes (moved : next s label = some t) : s.pushes ≤ t.pushes := by
  cases label with
  | loopPush | foreignPush =>
      cases moved
      exact Nat.le_succ _
  | loopWakeup | foreignWakeup =>
      cases moved
      simp only [State.goto, State.wakeIfNeeded, State.wakeup, State.setCaller]
      split <;> exact Nat.le_refl _
  | runFunctor =>
      simp only [next] at moved
      split at moved <;> cases moved
      exact Nat.le_refl _
  | callLoop | exitLoop | enterPoll | pollReturns | handleRead | loopQuit | doPendingFunctors
  | swap | finish | foreignQuit =>
      cases moved
      exact Nat.le_refl _

/-- Only the wakeup of its own call frees a caller. -/
theorem next_callers (thread : τ) (before : s.callers thread = .pushed)
    (behind : t.callers thread ≠ .pushed) (enabled : Enabled s label)
    (moved : next s label = some t) : 0 < t.counter := by
  have other (u : State τ) (caller : τ) (value : Caller) (same : u.callers = s.callers)
      (free : s.callers caller = .free) : (u.setCaller caller value).callers thread = .pushed := by
    have different : thread ≠ caller := by
      rintro rfl
      cases before.symm.trans free
    exact setCaller_pushed u caller thread value different (by rw [same]; exact before)
  cases label with
  | foreignWakeup caller =>
      cases moved
      exact Nat.succ_pos _
  | foreignPush caller =>
      cases moved
      exact absurd (other s.push caller .pushed rfl enabled) behind
  | foreignQuit caller =>
      cases moved
      exact absurd (other { s with quit := true } caller .quitting rfl enabled) behind
  | loopWakeup =>
      cases moved
      have same : ((s.wakeIfNeeded true).goto (s.phase.mark false)).callers = s.callers := by
        simp only [State.goto, State.wakeIfNeeded, State.wakeup]
        split <;> rfl
      rw [same] at behind
      exact absurd before behind
  | runFunctor =>
      simp only [next] at moved
      split at moved <;> cases moved
      exact absurd before behind
  | callLoop | exitLoop | enterPoll | pollReturns | handleRead | loopPush | loopQuit
  | doPendingFunctors | swap | finish =>
      cases moved
      exact absurd before behind

/-- poll is left to handle its events. -/
theorem next_poll (before : s.phase = .poll) (behind : t.phase ≠ .poll) (enabled : Enabled s label)
    (moved : next s label = some t) : Ready t := by
  have elsewhere {phase : Phase} (here : s.phase = phase) : phase = .poll :=
    here.symm.trans before
  cases label with
  | pollReturns wakeup =>
      cases moved
      rfl
  | callLoop | handleRead | doPendingFunctors | swap => cases elsewhere enabled
  | exitLoop | enterPoll | runFunctor | finish => cases elsewhere enabled.1
  | loopPush | loopWakeup | loopQuit =>
      rw [Enabled, before] at enabled
      cases enabled
  | foreignPush | foreignQuit =>
      cases moved
      exact absurd before behind
  | foreignWakeup =>
      cases moved
      exact absurd before behind

/-- What the functors may expect of the threads: if the loop thread is ready time and again,
it goes on time and again, so user code returns; and no call of queueInLoop stays between
the push and the test behind it. -/
structure Fair (e : Execution (machine τ) (created τ)) : Prop where
  onward : (∀ n, ∃ m ≥ n, Ready (e.state m)) →
    ∀ n, ∃ m ≥ n, ∃ label, e.label m = some label ∧ Onward label
  loop : ∀ n, ∃ m ≥ n, (e.state m).phase.runsUser true = false
  callers : ∀ thread n, ∃ m ≥ n, (e.state m).callers thread ≠ .pushed

/-- As long as a functor waits, the loop thread gets ready again. -/
theorem ready_again (e : Execution (machine τ) (created τ)) (fair : Fair e) (n : Nat)
    (waits : ∀ m ≥ n, f ∈ (e.state m).functors ∨ f ∈ (e.state m).pendingFunctors) :
    ∃ m ≥ n, Ready (e.state m) := by
  by_contra never
  have unready (m : Nat) (later : n ≤ m) : ¬ Ready (e.state m) := fun ready =>
    never ⟨m, later, ready⟩
  obtain ⟨m, later, outside⟩ := fair.loop n
  have polls : (e.state m).phase = .poll := by
    have stuck := unready m later
    unfold Ready at stuck
    cases phase : (e.state m).phase with
    | poll => rfl
    | idle | loopTest | swapping => rw [phase] at stuck; exact absurd trivial stuck
    | handling wakeup pushed | calling pushed =>
        rw [phase] at stuck outside
        cases pushed with
        | false => exact absurd rfl stuck
        | true => cases outside
  have stays (k : Nat) (after : m ≤ k) : (e.state k).phase = .poll := by
    by_contra gone
    obtain ⟨i, label, from_, _, taken, before, behind⟩ :=
      e.exists_step_ending (p := fun s => s.phase = .poll) after polls gone
    obtain ⟨enabled, moved⟩ := e.moves i label taken
    exact unready (i + 1) (by omega) (next_poll before behind enabled moved)
  have silent (k : Nat) (after : m ≤ k) : ¬ 0 < (e.state k).counter := by
    have stuck := unready k (by omega)
    rw [Ready, stays k after] at stuck
    exact stuck
  have inv := e.invariant next_preserves (created_invariant τ) m
  have none := inv.noBatch (by rw [polls]; simp)
  have queued : (e.state m).pendingFunctors ≠ [] := by
    rcases waits m later with batch | queue
    · rw [none] at batch
      cases batch
    · exact List.ne_nil_of_mem queue
  rcases inv.signalled (by rw [polls]; rfl) queued with positive | ⟨thread, pushed⟩
  · exact silent m le_rfl positive
  · obtain ⟨k, after, free⟩ := fair.callers thread m
    obtain ⟨i, label, from_, _, taken, before, behind⟩ :=
      e.exists_step_ending (p := fun s => s.callers thread = .pushed) after pushed free
    obtain ⟨enabled, moved⟩ := e.moves i label taken
    exact silent (i + 1) (by omega) (next_callers thread before behind enabled moved)

/-- In every endless run of the loop with any number of foreign threads, in which user code
and queueInLoop return and nobody calls quit(): each functor that is pushed is executed at
some time, even if no poll ever returns without something to report. -/
theorem functor_runs (e : Execution (machine τ) (created τ)) (fair : Fair e)
    (running : ∀ n, (e.state n).quit = false) (n : Nat) (f : Nat)
    (pushed : f < (e.state n).pushes) : ∃ m ≥ n, f ∈ (e.state m).executed := by
  have inv (m : Nat) := e.invariant next_preserves (created_invariant τ) m
  have waits (m : Nat) (later : n ≤ m) (undone : f ∉ (e.state m).executed) :
      f ∈ (e.state m).functors ∨ f ∈ (e.state m).pendingFunctors := by
    refine ((inv m).place ?_).resolve_left undone
    refine e.kept (p := fun s => f < s.pushes) ?_ later pushed
    intro k label taken before
    exact Nat.lt_of_lt_of_le before (next_pushes (e.moves k label taken).2)
  refine e.reaches (fun s => f ∈ s.executed) Onward (toRun f) n ?_ ?_ ?_
  · intro m later label taken undone
    obtain ⟨enabled, moved⟩ := e.moves m label taken
    by_cases onward : Onward label
    · by_cases batch : f ∈ (e.state m).functors
      · exact (next_toRun_batch (inv m) batch onward enabled moved).imp_right Nat.le_of_lt
      · have queued := (waits m later undone).resolve_left batch
        exact Or.inr (next_toRun_queue batch queued onward enabled moved).le
    · exact Or.inr (next_toRun_eq (waits m later undone) (running m) onward enabled moved).le
  · intro m later label taken onward undone
    obtain ⟨enabled, moved⟩ := e.moves m label taken
    by_cases batch : f ∈ (e.state m).functors
    · exact next_toRun_batch (inv m) batch onward enabled moved
    · have queued := (waits m later undone).resolve_left batch
      exact Or.inr (next_toRun_queue batch queued onward enabled moved)
  · intro m later
    by_cases done : ∃ k ≥ m, f ∈ (e.state k).executed
    · obtain ⟨k, after, found⟩ := done
      exact ⟨k, after, Or.inl found⟩
    · have ready (k : Nat) : ∃ i ≥ k, Ready (e.state i) := by
        obtain ⟨i, after, ready⟩ := ready_again (f := f) e fair (max k m) (by
          intro i after
          exact waits i (by omega) fun found => done ⟨i, by omega, found⟩)
        exact ⟨i, by omega, ready⟩
      obtain ⟨k, after, label, taken, onward⟩ := fair.onward ready m
      exact ⟨k, after, Or.inr ⟨label, taken, onward⟩⟩

def Label.quits : Label τ → Bool
  | .loopQuit | .foreignQuit _ => true
  | .callLoop | .exitLoop | .enterPoll | .pollReturns _ | .handleRead | .loopPush | .loopWakeup
  | .doPendingFunctors | .swap | .runFunctor | .finish | .foreignPush _ | .foreignWakeup _ => false

theorem run_running {labels : List (Label τ)} (run : (machine τ).Run (created τ) labels s)
    (quiet : ∀ label ∈ labels, label.quits = false) : s.quit = false := by
  induction run with
  | nil => rfl
  | @snoc labels t u label front enabled moved ih =>
      have before := ih fun label member => quiet label (List.mem_append_left _ member)
      have here := quiet label (List.mem_append_right _ (List.mem_singleton_self label))
      cases label with
      | loopQuit | foreignQuit => cases here
      | callLoop =>
          cases moved
          rfl
      | loopWakeup | foreignWakeup =>
          cases moved
          simp only [State.goto, State.wakeIfNeeded, State.wakeup, State.setCaller]
          split <;> exact before
      | runFunctor =>
          change next t .runFunctor = some u at moved
          simp only [next] at moved
          split at moved <;> cases moved
          exact before
      | exitLoop | enterPoll | pollReturns | handleRead | loopPush | doPendingFunctors | swap
      | finish | foreignPush =>
          cases moved
          exact before

end

/-- A thread pushes while the loop polls, and the loop goes back to poll for ever. -/
def once : List (Label Unit) :=
  [.callLoop, .enterPoll, .foreignPush (), .foreignWakeup (), .pollReturns true, .handleRead,
    .doPendingFunctors, .swap, .runFunctor, .finish, .enterPoll]

theorem functor_runs_once :
    ∃ e : Execution (machine Unit) (created Unit), Fair e ∧ (∀ n, (e.state n).quit = false) ∧
      (e.state 3).executed = [] ∧ (e.state 3).pushes = 1 ∧ ∃ m ≥ 3, 0 ∈ (e.state m).executed := by
  obtain ⟨t, run, ended⟩ := (machine Unit).exists_run_of_play (created Unit) once
    (fun s => (s.phase, s.counter, s.callers ())) (.poll, 0, .free) (by decide +kernel)
  obtain ⟨u, begun, seen⟩ := (machine Unit).exists_run_of_play (created Unit) (once.take 3)
    (fun s => (s.executed, s.pushes)) ([], 1) (by decide +kernel)
  obtain ⟨e, last, again, runs, _⟩ := exists_stopping run
  simp only [Prod.mk.injEq] at ended seen
  obtain ⟨polls, silent, free⟩ := ended
  obtain ⟨waiting, pushed⟩ := seen
  have size : once.length = 11 := rfl
  have third : e.state 3 = u := (runs 3 (by decide)).unique begun
  have running (n : Nat) : (e.state n).quit = false := by
    have quiet : ∀ label ∈ once, label.quits = false := by decide
    by_cases within : n ≤ 11
    · exact run_running (runs n within) fun label member =>
        quiet label (List.mem_of_mem_take member)
    · rw [last n (by omega)]
      exact run_running run quiet
  have fair : Fair e := by
    refine ⟨?_, ?_, ?_⟩
    · intro ready
      obtain ⟨m, later, positive⟩ := ready 11
      rw [last m later, Ready, polls, silent] at positive
      exact absurd positive (Nat.lt_irrefl 0)
    · intro n
      obtain ⟨m, later, same⟩ := again n
      exact ⟨m, later, by rw [same, polls]; rfl⟩
    · intro thread n
      obtain ⟨m, later, same⟩ := again n
      exact ⟨m, later, by rw [same, free]; decide⟩
  refine ⟨e, fair, running, by rw [third, waiting], by rw [third, pushed], ?_⟩
  exact functor_runs e fair running 3 0 (by rw [third, pushed]; exact Nat.one_pos)

end Tundra.EventLoop
