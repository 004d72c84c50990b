import Mathlib.Logic.Function.Basic
import Mathlib.Data.List.Nodup
import Mathlib.Data.List.Range
import Tundra.Library.Machine

set_option autoImplicit false

/- net/EventLoop: the loop thread, the functor queue and the wakeup descriptor,
with any number of foreign threads calling queueInLoop and quit. -/
namespace Tundra.EventLoop

open Library

/-- Where the loop thread is. `wakeup` tells whether the wakeup channel is among the
active channels and not yet handled, `pushed` whether the code under way is inside
queueInLoop between the push and the test behind it. -/
inductive Phase
  | idle
  | loopTest
  | poll
  | handling (wakeup pushed : Bool)
  | swapping
  | calling (pushed : Bool)
deriving DecidableEq

/-- A foreign thread outside the loop's functions, or ahead of the wakeup of
queueInLoop or of quit. -/
inductive Caller
  | free
  | pushed
  | quitting
deriving DecidableEq

/-- A functor is named by the number of its push; `pushes` is the number of the next
one. `functors` is what is left of doPendingFunctors' batch and `executed` the
functors started so far. -/
structure State (τ : Type*) where
  phase : Phase
  quit : Bool
  callingPendingFunctors : Bool
  counter : Nat
  pendingFunctors : List Nat
  functors : List Nat
  callers : τ → Caller
  pushes : Nat
  executed : List Nat

variable {τ : Type*}

namespace State

/-- The locked part of queueInLoop. -/
def push (s : State τ) : State τ :=
  { s with pendingFunctors := s.pendingFunctors ++ [s.pushes], pushes := s.pushes + 1 }

/-- A write of 1 to the wakeup descriptor. -/
def wakeup (s : State τ) : State τ := { s with counter := s.counter + 1 }

/-- The part of queueInLoop behind the lock. -/
def wakeIfNeeded (s : State τ) (inLoopThread : Bool) : State τ :=
  if !inLoopThread || s.callingPendingFunctors then s.wakeup else s

def goto (s : State τ) (phase : Phase) : State τ := { s with phase := phase }

def setCaller [DecidableEq τ] (s : State τ) (thread : τ) (caller : Caller) : State τ :=
  { s with callers := Function.update s.callers thread caller }

end State

inductive Label (τ : Type*)
  | callLoop
  | exitLoop
  | enterPoll
  | pollReturns (wakeup : Bool)
  | handleRead
  | loopPush
  | loopWakeup
  | loopQuit
  | doPendingFunctors
  | swap
  | runFunctor
  | finish
  | foreignPush (thread : τ)
  | foreignQuit (thread : τ)
  | foreignWakeup (thread : τ)

/-- The loop thread runs a handler or a functor, inside or outside queueInLoop. -/
def Phase.runsUser (inside : Bool) : Phase → Bool
  | .handling _ pushed => pushed == inside
  | .calling pushed => pushed == inside
  | .idle | .loopTest | .poll | .swapping => false

/-- What a step needs. The loop thread calls queueInLoop and quit from handlers and
functors only, and poll reports the wakeup channel only with the counter above
zero. -/
def Enabled (s : State τ) : Label τ → Prop
  | .callLoop => s.phase = .idle
  | .exitLoop => s.phase = .loopTest ∧ s.quit = true
  | .enterPoll => s.phase = .loopTest ∧ s.quit = false
  | .pollReturns wakeup => s.phase = .poll ∧ (wakeup = true → 0 < s.counter)
  | .handleRead => s.phase = .handling true false
  | .loopPush => s.phase.runsUser false = true
  | .loopWakeup => s.phase.runsUser true = true
  | .loopQuit => s.phase.runsUser false = true
  | .doPendingFunctors => s.phase = .handling false false
  | .swap => s.phase = .swapping
  | .runFunctor => s.phase = .calling false ∧ s.functors ≠ []
  | .finish => s.phase = .calling false ∧ s.functors = []
  | .foreignPush thread => s.callers thread = .free
  | .foreignQuit thread => s.callers thread = .free
  | .foreignWakeup thread => s.callers thread ≠ .free

/-- The phase with the mark of a loop-thread push set or taken away. -/
def Phase.mark (pushed : Bool) : Phase → Phase
  | .handling wakeup _ => .handling wakeup pushed
  | .calling _ => .calling pushed
  | .idle => .idle
  | .loopTest => .loopTest
  | .poll => .poll
  | .swapping => .swapping

def next [DecidableEq τ] (s : State τ) : Label τ → Option (State τ)
  | .callLoop => some { s with phase := .loopTest, quit := false }
  | .exitLoop => some (s.goto .idle)
  | .enterPoll => some (s.goto .poll)
  | .pollReturns wakeup => some (s.goto (.handling wakeup false))
  | .handleRead => some { s with phase := .handling false false, counter := 0 }
  | .loopPush => some (s.push.goto (s.phase.mark true))
  | .loopWakeup => some ((s.wakeIfNeeded true).goto (s.phase.mark false))
  | .loopQuit => some { s with quit := true }
  | .doPendingFunctors => some { s with phase := .swapping, callingPendingFunctors := true }
  | .swap => some { s with
      phase := .calling false, functors := s.pendingFunctors, pendingFunctors := [] }
  | .runFunctor =>
      match s.functors with
      | [] => none
      | first :: rest => some { s with functors := rest, executed := s.executed ++ [first] }
  | .finish => some { s with phase := .loopTest, callingPendingFunctors := false }
  | .foreignPush thread => some (s.push.setCaller thread .pushed)
  | .foreignQuit thread => some ({ s with quit := true }.setCaller thread .quitting)
  | .foreignWakeup thread => some ((s.wakeIfNeeded false).setCaller thread .free)

def machine (τ : Type*) [DecidableEq τ] : Machine (State τ) (Label τ) where
  enabled := Enabled
  step := next

/-- The loop after its constructor. -/
def created (τ : Type*) : State τ where
  phase := .idle
  quit := false
  callingPendingFunctors := false
  counter := 0
  pendingFunctors := []
  functors := []
  callers _ := .free
  pushes := 0
  executed := []

/-- Something will end a poll that finds functors in the queue: the counter is above
zero, or a thread has pushed and not yet woken the loop. -/
def Signalled (s : State τ) : Prop :=
  s.pendingFunctors ≠ [] → 0 < s.counter ∨ ∃ thread, s.callers thread = .pushed

/-- The phases in which nothing but a wakeup brings the loop to its queue. -/
def Phase.waits : Phase → Bool
  | .idle | .loopTest | .poll => true
  | .calling pushed => !pushed
  | .handling _ _ | .swapping => false

/-- doPendingFunctors is under way from the setting of the flag to its reset. -/
def Phase.inBatch : Phase → Bool
  | .swapping | .calling _ => true
  | .idle | .loopTest | .poll | .handling _ _ => false

/-- The loop thread's own push, in a functor, is followed by a wakeup since the flag
is set; a push in a handler is followed by the swap. -/
structure Invariant (s : State τ) : Prop where
  order : List.range s.pushes = s.executed ++ s.functors ++ s.pendingFunctors
  flag : s.callingPendingFunctors = s.phase.inBatch
  batch : s.functors ≠ [] → ∃ pushed, s.phase = .calling pushed
  signalled : s.phase.waits = true → Signalled s

theorem created_invariant (τ : Type*) : Invariant (created τ) := by
  refine ⟨rfl, rfl, ?_, ?_⟩
  · intro some
    exact absurd rfl some
  · intro _ some
    exact absurd rfl some

theorem push_order (s : State τ) (inv : Invariant s) :
    List.range (s.pushes + 1) =
      s.executed ++ s.functors ++ (s.pendingFunctors ++ [s.pushes]) := by
  rw [List.range_succ, inv.order, List.append_assoc (s.executed ++ s.functors)]

theorem runsUser_cases (phase : Phase) (inside : Bool) (runs : phase.runsUser inside = true) :
    (∃ wakeup, phase = .handling wakeup inside) ∨ phase = .calling inside := by
  cases phase with
  | handling wakeup pushed => exact Or.inl ⟨wakeup, by rw [eq_of_beq runs]⟩
  | calling pushed => exact Or.inr (by rw [eq_of_beq runs])
  | idle => cases runs
  | loopTest => cases runs
  | poll => cases runs
  | swapping => cases runs

/-- A push by the loop thread itself: either no wakeup is needed before the swap, or
one follows at once. -/
theorem loopPush_invariant (s : State τ) (inv : Invariant s)
    (runs : s.phase.runsUser false = true) :
    Invariant (s.push.goto (s.phase.mark true)) := by
  have order := push_order s inv
  have flag := inv.flag
  have batch := inv.batch
  rcases runsUser_cases s.phase _ runs with ⟨wakeup, at_⟩ | at_
  · rw [at_] at flag batch ⊢
    refine ⟨order, flag, ?_, fun waits => by cases waits⟩
    intro some
    obtain ⟨pushed, impossible⟩ := batch some
    cases impossible
  · rw [at_] at flag ⊢
    exact ⟨order, flag, fun _ => ⟨true, rfl⟩, fun waits => by cases waits⟩

theorem loopWakeup_invariant (s : State τ) (inv : Invariant s)
    (runs : s.phase.runsUser true = true) :
    Invariant ((s.wakeIfNeeded true).goto (s.phase.mark false)) := by
  have flag := inv.flag
  have batch := inv.batch
  rcases runsUser_cases s.phase _ runs with ⟨wakeup, at_⟩ | at_
  · rw [at_] at flag batch ⊢
    have quiet : s.wakeIfNeeded true = s := by
      rw [State.wakeIfNeeded, flag]
      rfl
    rw [quiet]
    refine ⟨inv.order, flag, ?_, fun waits => by cases waits⟩
    intro some
    obtain ⟨pushed, impossible⟩ := batch some
    cases impossible
  · rw [at_] at flag ⊢
    have loud : s.wakeIfNeeded true = s.wakeup := by
      rw [State.wakeIfNeeded, flag]
      rfl
    rw [loud]
    exact ⟨inv.order, flag, fun _ => ⟨false, rfl⟩, fun _ _ => Or.inl (Nat.succ_pos _)⟩

/-- Outside the calling phase the batch is empty. -/
theorem Invariant.noBatch {s : State τ} (inv : Invariant s)
    (elsewhere : ∀ pushed, s.phase ≠ .calling pushed) : s.functors = [] := by
  by_contra some
  obtain ⟨pushed, here⟩ := inv.batch some
  exact elsewhere pushed here

/-- From one phase without a batch to another, both waiting for a wakeup. -/
theorem goto_invariant (s : State τ) (phase : Phase) (quit : Bool) (inv : Invariant s)
    (waits : s.phase.waits = true) (outside : s.phase.inBatch = false)
    (outside' : phase.inBatch = false) : Invariant { s with phase := phase, quit := quit } := by
  have none : s.functors = [] := by
    apply inv.noBatch
    intro pushed at_
    rw [at_] at outside
    cases outside
  refine ⟨inv.order, ?_, fun some => absurd none some, fun _ => inv.signalled waits⟩
  rw [inv.flag, outside, outside']

/-- From a phase without a batch to one that does not wait for a wakeup. -/
theorem busy_invariant (s : State τ) (phase : Phase) (calling : Bool) (counter : Nat)
    (inv : Invariant s) (elsewhere : ∀ pushed, s.phase ≠ .calling pushed)
    (flag : calling = phase.inBatch) (busy : phase.waits = false) :
    Invariant { s with
      phase := phase
      callingPendingFunctors := calling
      counter := counter } := by
  have none := inv.noBatch elsewhere
  refine ⟨inv.order, flag, fun some => absurd none some, fun waits => ?_⟩
  rw [busy] at waits
  cases waits

/-- The queue becomes the batch. -/
theorem swap_invariant (s : State τ) (inv : Invariant s) (at_ : s.phase = .swapping) :
    Invariant { s with
      phase := .calling false, functors := s.pendingFunctors, pendingFunctors := [] } := by
  have flag := inv.flag
  have none := inv.noBatch (by rw [at_]; simp)
  rw [at_] at flag
  refine ⟨?_, flag, fun _ => ⟨false, rfl⟩, fun _ some => absurd rfl some⟩
  simpa only [none, List.append_nil] using inv.order

theorem runFunctor_invariant (s : State τ) (inv : Invariant s) (at_ : s.phase = .calling false)
    (first : Nat) (rest : List Nat) (batch : s.functors = first :: rest) :
    Invariant { s with functors := rest, executed := s.executed ++ [first] } := by
  refine ⟨?_, inv.flag, fun _ => ⟨false, at_⟩, inv.signalled⟩
  have order := inv.order
  simpa only [batch, List.append_assoc, List.cons_append, List.nil_append] using order

variable [DecidableEq τ]

/-- A caller that changes leaves those between push and wakeup alone, unless it is
one of them. -/
theorem setCaller_pushed (s : State τ) (thread other : τ) (caller : Caller)
    (different : other ≠ thread) (pushed : s.callers other = .pushed) :
    (s.setCaller thread caller).callers other = .pushed := by
  simp only [State.setCaller, Function.update_of_ne different, pushed]

theorem foreignPush_invariant (s : State τ) (thread : τ) (inv : Invariant s) :
    Invariant (s.push.setCaller thread .pushed) := by
  refine ⟨push_order s inv, inv.flag, inv.batch, fun _ _ => Or.inr ⟨thread, ?_⟩⟩
  simp only [State.setCaller, Function.update_self]

theorem foreignQuit_invariant (s : State τ) (thread : τ) (inv : Invariant s)
    (free : s.callers thread = .free) :
    Invariant ({ s with quit := true }.setCaller thread .quitting) := by
  refine ⟨inv.order, inv.flag, inv.batch, fun waits some => ?_⟩
  rcases inv.signalled waits some with positive | ⟨other, pushed⟩
  · exact Or.inl positive
  · have different : other ≠ thread := by
      intro same
      rw [same, free] at pushed
      cases pushed
    exact Or.inr ⟨other, setCaller_pushed _ thread other .quitting different pushed⟩

theorem foreignWakeup_invariant (s : State τ) (thread : τ) (inv : Invariant s) :
    Invariant ((s.wakeIfNeeded false).setCaller thread .free) :=
  ⟨inv.order, inv.flag, inv.batch, fun _ _ => Or.inl (Nat.succ_pos _)⟩

theorem next_invariant (s t : State τ) (label : Label τ) (inv : Invariant s)
    (enabled : Enabled s label) (moved : next s label = some t) : Invariant t := by
  have flag := inv.flag
  cases label with
  | callLoop =>
      have at_ : s.phase = .idle := enabled
      cases moved
      exact goto_invariant s .loopTest false inv (by rw [at_]; rfl) (by rw [at_]; rfl) rfl
  | exitLoop =>
      have at_ := enabled.1
      cases moved
      exact goto_invariant s .idle s.quit inv (by rw [at_]; rfl) (by rw [at_]; rfl) rfl
  | enterPoll =>
      have at_ := enabled.1
      cases moved
      exact goto_invariant s .poll s.quit inv (by rw [at_]; rfl) (by rw [at_]; rfl) rfl
  | pollReturns wakeup =>
      have at_ := enabled.1
      cases moved
      rw [at_] at flag
      exact busy_invariant s _ _ s.counter inv (by rw [at_]; simp) flag rfl
  | handleRead =>
      have at_ : s.phase = .handling true false := enabled
      cases moved
      rw [at_] at flag
      exact busy_invariant s _ _ 0 inv (by rw [at_]; simp) flag rfl
  | loopPush =>
      cases moved
      exact loopPush_invariant s inv enabled
  | loopWakeup =>
      cases moved
      exact loopWakeup_invariant s inv enabled
  | loopQuit =>
      cases moved
      exact ⟨inv.order, flag, inv.batch, inv.signalled⟩
  | doPendingFunctors =>
      have at_ : s.phase = .handling false false := enabled
      cases moved
      exact busy_invariant s .swapping true s.counter inv (by rw [at_]; simp) rfl rfl
  | swap =>
      cases moved
      exact swap_invariant s inv enabled
  | runFunctor =>
      obtain ⟨at_, some⟩ := enabled
      unfold next at moved
      cases batch : s.functors with
      | nil => exact absurd batch some
      | cons first rest =>
          simp only [batch, Option.some.injEq] at moved
          subst moved
          exact runFunctor_invariant s inv at_ first rest batch
  | finish =>
      obtain ⟨at_, none⟩ := enabled
      cases moved
      refine ⟨inv.order, rfl, fun some => absurd none some, fun _ => ?_⟩
      exact inv.signalled (by rw [at_]; rfl)
  | foreignPush thread =>
      cases moved
      exact foreignPush_invariant s thread inv
  | foreignQuit thread =>
      cases moved
      exact foreignQuit_invariant s thread inv enabled
  | foreignWakeup thread =>
      cases moved
      exact foreignWakeup_invariant s thread inv

theorem next_preserves : (machine τ).Preserves Invariant := by
  intro s label t inv enabled moved
  exact next_invariant s t label inv enabled moved

/-- In every run, a loop thread that is about to poll or polls with functors in the
queue will be woken; and the functors pushed so far are, in the order of their
pushes, those executed, those left in the batch and those in the queue. -/
theorem functorQueue_signalled_fifo (labels : List (Label τ)) (s : State τ)
    (run : (machine τ).Run (created τ) labels s) :
    ((Enabled s .enterPoll ∨ s.phase = .poll) → s.pendingFunctors ≠ [] →
      0 < s.counter ∨ ∃ thread, s.callers thread = .pushed) ∧
    List.range s.pushes = s.executed ++ s.functors ++ s.pendingFunctors ∧ s.executed.Nodup := by
  have inv := run.invariant next_preserves (created_invariant τ)
  refine ⟨?_, inv.order, ?_⟩
  · intro polls
    apply inv.signalled
    rcases polls with ⟨at_, _⟩ | at_
    · rw [at_]
      rfl
    · rw [at_]
      rfl
  · have distinct := List.nodup_range (n := s.pushes)
    rw [inv.order, List.append_assoc] at distinct
    exact (List.nodup_append.mp distinct).1

instance (s : State τ) : (label : Label τ) → Decidable ((machine τ).enabled s label)
  | .callLoop => inferInstanceAs (Decidable (s.phase = .idle))
  | .exitLoop => inferInstanceAs (Decidable (s.phase = .loopTest ∧ s.quit = true))
  | .enterPoll => inferInstanceAs (Decidable (s.phase = .loopTest ∧ s.quit = false))
  | .pollReturns wakeup =>
      inferInstanceAs (Decidable (s.phase = .poll ∧ (wakeup = true → 0 < s.counter)))
  | .handleRead => inferInstanceAs (Decidable (s.phase = .handling true false))
  | .loopPush => inferInstanceAs (Decidable (s.phase.runsUser false = true))
  | .loopWakeup => inferInstanceAs (Decidable (s.phase.runsUser true = true))
  | .loopQuit => inferInstanceAs (Decidable (s.phase.runsUser false = true))
  | .doPendingFunctors => inferInstanceAs (Decidable (s.phase = .handling false false))
  | .swap => inferInstanceAs (Decidable (s.phase = .swapping))
  | .runFunctor => inferInstanceAs (Decidable (s.phase = .calling false ∧ s.functors ≠ []))
  | .finish => inferInstanceAs (Decidable (s.phase = .calling false ∧ s.functors = []))
  | .foreignPush thread => inferInstanceAs (Decidable (s.callers thread = .free))
  | .foreignQuit thread => inferInstanceAs (Decidable (s.callers thread = .free))
  | .foreignWakeup thread => inferInstanceAs (Decidable (s.callers thread ≠ .free))

/-- Thread 0 pushes and wakes, the first functor pushes another one, and thread 1
pushes while the loop is back in poll. -/
def busy : List (Label Nat) :=
  [.callLoop, .enterPoll, .foreignPush 0, .foreignWakeup 0, .pollReturns true, .handleRead,
    .doPendingFunctors, .swap, .runFunctor, .loopPush, .loopWakeup, .finish, .enterPoll,
    .foreignPush 1]

theorem functorQueue_busy :
    ∃ s, (machine Nat).Run (created Nat) busy s ∧ s.phase = .poll ∧ s.executed = [0] ∧
      s.pendingFunctors = [1, 2] ∧ (0 < s.counter ∨ ∃ thread, s.callers thread = .pushed) := by
  obtain ⟨s, run, seen⟩ := (machine Nat).exists_run_of_play (created Nat) busy
    (fun s => (s.phase, s.executed, s.pendingFunctors)) (.poll, [0], [1, 2]) (by decide +kernel)
  simp only [Prod.mk.injEq] at seen
  obtain ⟨polls, executed, pending⟩ := seen
  have woken := (functorQueue_signalled_fifo busy s run).1 (Or.inr polls) (by rw [pending]; simp)
  exact ⟨s, run, polls, executed, pending, woken⟩

end Tundra.EventLoop
