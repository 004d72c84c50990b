import Tundra.Net.EventLoop

set_option autoImplicit false

/- net/EventLoopThread: the thread that makes an EventLoop and runs it, the caller of
startLoop that waits for the pointer, and the destructor. -/
namespace Tundra.EventLoopThread

open Library

/-- Where threadFunc is. The EventLoop lives on its stack, from `constructed` to
`retracting`; in `inLoop` the thread is inside loop(). -/
inductive Place
  | unstarted
  | spawned
  | constructed
  | publishing
  | published
  | inLoop
  | retracting
  | finished
deriving DecidableEq

inductive StartLoop
  | uncalled
  | waiting
  | returned
deriving DecidableEq

/-- The destructor, on some thread: it has found loop_ set and is ahead of its quit()
(`quitting`) or inside or behind it (`joining`). -/
inductive Destructor (τ : Type*)
  | uncalled
  | quitting (thread : τ)
  | joining (thread : τ)
  | over
deriving DecidableEq

/-- `joinable` is thread_.joinable(), `published` tells whether the member loop_ is set, and
`quitReturned` whether a call of quit() by a thread that has the pointer from startLoop has
returned. -/
structure State (τ : Type*) where
  place : Place
  loop : EventLoop.State τ
  joinable : Bool
  published : Bool
  startLoop : StartLoop
  destructor : Destructor τ
  quitReturned : Bool

inductive Label (τ : Type*)
  | startLoop
  | construct
  | callback (quits : Bool)
  | publish
  | startLoopReturns
  | loop (label : EventLoop.Label τ)
  | retract
  | destroy (thread : τ)
  | destructorQuit (thread : τ)
  | join (thread : τ)

variable {τ : Type*}

/-- The EventLoop exists. -/
def Place.Alive : Place → Prop
  | .unstarted | .spawned | .finished => False
  | _ => True

instance (place : Place) : Decidable place.Alive :=
  match place with
  | .unstarted | .spawned | .finished => isFalse id
  | .constructed | .publishing | .published | .inLoop | .retracting => isTrue trivial

/-- loop() has set looping_ and quit_. -/
def Place.Started : Place → Prop
  | .inLoop | .retracting | .finished => True
  | _ => False

instance (place : Place) : Decidable place.Started :=
  match place with
  | .inLoop | .retracting | .finished => isTrue trivial
  | .unstarted | .spawned | .constructed | .publishing | .published => isFalse id

/-- What a step of the EventLoop needs besides its own conditions: loop() is called once,
and other threads push and quit through the pointer that startLoop has returned. -/
def Reaches (s : State τ) : EventLoop.Label τ → Prop
  | .callLoop => s.place = .published
  | .foreignPush _ | .foreignQuit _ => s.startLoop = .returned ∧ s.place.Alive
  | .foreignWakeup _ => s.place.Alive
  | _ => s.place = .inLoop

def Enabled (s : State τ) : Label τ → Prop
  | .startLoop => s.place = .unstarted ∧ s.destructor = .uncalled
  | .construct => s.place = .spawned
  | .callback _ => s.place = .constructed
  | .publish => s.place = .publishing
  | .startLoopReturns => s.startLoop = .waiting ∧ s.published = true
  | .loop label => Reaches s label ∧ EventLoop.Enabled s.loop label
  | .retract => s.place = .retracting
  | .destroy _ => s.startLoop ≠ .waiting ∧ s.destructor = .uncalled
  | .destructorQuit thread => s.destructor = .quitting thread ∧ s.loop.callers thread = .free
  | .join thread =>
      s.destructor = .joining thread ∧ s.loop.callers thread = .free ∧ s.place = .finished

/-- The place after a step of the EventLoop. -/
def Place.follow (place : Place) : EventLoop.Label τ → Place
  | .callLoop => .inLoop
  | .exitLoop => .retracting
  | _ => place

/-- The step lets a quit() of a foreign thread return. -/
def returnsFromQuit (s : State τ) : EventLoop.Label τ → Bool
  | .foreignWakeup thread => s.loop.callers thread = .quitting
  | _ => false

def next [DecidableEq τ] (s : State τ) : Label τ → Option (State τ)
  | .startLoop => some { s with startLoop := .waiting, place := .spawned, joinable := true }
  | .construct => some { s with place := .constructed }
  | .callback quits =>
      some { s with place := .publishing, loop := { s.loop with quit := s.loop.quit || quits } }
  | .publish => some { s with place := .published, published := true }
  | .startLoopReturns => some { s with startLoop := .returned }
  | .loop label => (EventLoop.next s.loop label).map fun loop =>
      { s with
        loop := loop
        place := s.place.follow label
        quitReturned := s.quitReturned || returnsFromQuit s label }
  | .retract => some { s with place := .finished, published := false }
  | .destroy thread =>
      some { s with destructor := if s.published then .quitting thread else .over }
  | .destructorQuit thread =>
      -- A call on an EventLoop that threadFunc has destroyed has no defined outcome.
      if s.place.Alive then
        (EventLoop.next s.loop (.foreignQuit thread)).map fun loop =>
          { s with loop := loop, destructor := .joining thread }
      else none
  | .join _ => some { s with destructor := .over, joinable := false }

def machine (τ : Type*) [DecidableEq τ] : Machine (State τ) (Label τ) where
  enabled := Enabled
  step := next

/-- The object after its constructor. -/
def created (τ : Type*) : State τ where
  place := .unstarted
  loop := EventLoop.created τ
  joinable := false
  published := false
  startLoop := .uncalled
  destructor := .uncalled
  quitReturned := false

/-- quit() has returned and the loop thread is about to evaluate its loop condition with
quit_ false, which takes it into poll. -/
def Lost (s : State τ) : Prop := s.quitReturned = true ∧ Enabled s (.loop .enterPoll)

/-- A quit() by a thread that has the pointer from startLoop comes after loop() has set
quit_. -/
def QuitsAfterStart (s : State τ) : Label τ → Prop
  | .loop (.foreignQuit _) | .destructorQuit _ => s.place.Started
  | _ => True

/-- A foreign quit() has stored quit_: it has returned or is ahead of its wakeup. -/
def Asked (s : State τ) : Prop :=
  s.quitReturned = true ∨ ∃ thread, s.loop.callers thread = .quitting

section Loop

variable [DecidableEq τ] {loop loop' : EventLoop.State τ}

/-- Only the start of loop() takes the flag back. -/
theorem loop_quit_kept {label : EventLoop.Label τ} (moved : EventLoop.next loop label = some loop')
    (later : label ≠ .callLoop) (set : loop.quit = true) : loop'.quit = true := by
  cases label with
  | callLoop => exact absurd rfl later
  | runFunctor =>
      dsimp only [EventLoop.next] at moved
      split at moved
      · cases moved
      · obtain rfl := Option.some.inj moved
        exact set
  | loopWakeup =>
      obtain rfl := Option.some.inj moved
      unfold EventLoop.State.wakeIfNeeded
      split <;> exact set
  | foreignWakeup thread =>
      obtain rfl := Option.some.inj moved
      unfold EventLoop.State.wakeIfNeeded
      split <;> exact set
  | loopQuit | foreignQuit =>
      obtain rfl := Option.some.inj moved
      rfl
  | exitLoop | enterPoll | pollReturns | handleRead | loopPush | doPendingFunctors | swap | finish
  | foreignPush =>
      obtain rfl := Option.some.inj moved
      exact set

theorem setCaller_quitting {thread other : τ} {caller : EventLoop.Caller}
    (calm : caller ≠ .quitting)
    (here : (loop.setCaller thread caller).callers other = .quitting) :
    loop.callers other = .quitting := by
  by_cases same : other = thread
  · subst same
    rw [show (loop.setCaller other caller).callers other = caller from
      Function.update_self ..] at here
    exact absurd here calm
  · rw [show (loop.setCaller thread caller).callers other = loop.callers other from
      Function.update_of_ne same ..] at here
    exact here

/-- A thread inside quit() was there already, but for the one that calls it now. -/
theorem loop_quitting_origin {label : EventLoop.Label τ} {thread : τ}
    (moved : EventLoop.next loop label = some loop')
    (other : ∀ caller, label ≠ .foreignQuit caller)
    (here : loop'.callers thread = .quitting) : loop.callers thread = .quitting := by
  cases label with
  | foreignQuit caller => exact absurd rfl (other caller)
  | runFunctor =>
      dsimp only [EventLoop.next] at moved
      split at moved
      · cases moved
      · obtain rfl := Option.some.inj moved
        exact here
  | loopWakeup =>
      obtain rfl := Option.some.inj moved
      unfold EventLoop.State.wakeIfNeeded at here
      split at here <;> exact here
  | foreignWakeup caller =>
      obtain rfl := Option.some.inj moved
      have before := setCaller_quitting (by decide) here
      unfold EventLoop.State.wakeIfNeeded at before
      split at before <;> exact before
  | foreignPush caller =>
      obtain rfl := Option.some.inj moved
      have before : loop.push.callers thread = .quitting := setCaller_quitting (by decide) here
      exact before
  | callLoop | exitLoop | enterPoll | pollReturns | handleRead | loopPush | loopQuit
  | doPendingFunctors | swap | finish =>
      obtain rfl := Option.some.inj moved
      exact here

end Loop

section Runs

variable {s t : State τ} {labels : List (Label τ)}

/-- Whoever has stored quit_ did so behind the start of loop(), and the flag stands. -/
def Heard (s : State τ) : Prop := Asked s → s.place.Started ∧ s.loop.quit = true

theorem Place.follow_started {place : Place} (started : place.Started)
    (label : EventLoop.Label τ) : (place.follow label).Started := by
  cases label with
  | callLoop | exitLoop => trivial
  | enterPoll | pollReturns | handleRead | loopPush | loopWakeup | loopQuit | doPendingFunctors
  | swap | runFunctor | finish | foreignPush | foreignQuit | foreignWakeup => exact started

/-- A step before the start of loop(): nobody has asked yet. -/
theorem Heard.unasked (heard : Heard s) (early : ¬ s.place.Started) : ¬ Asked s :=
  fun asked => early (heard asked).1

variable [DecidableEq τ]

/-- A step of the EventLoop other than a foreign quit() leaves no new request behind. -/
theorem asked_origin {label : EventLoop.Label τ} (moved : next s (.loop label) = some t)
    (other : ∀ caller, label ≠ .foreignQuit caller) (asked : Asked t) : Asked s := by
  obtain ⟨loop, stepped, rfl⟩ := Option.map_eq_some_iff.mp moved
  rcases asked with returned | ⟨thread, quitting⟩
  · rcases Bool.or_eq_true_iff.mp returned with before | now
    · exact .inl before
    · cases label with
      | foreignWakeup thread => exact .inr ⟨thread, of_decide_eq_true now⟩
      | callLoop | exitLoop | enterPoll | pollReturns | handleRead | loopPush | loopWakeup
      | loopQuit | doPendingFunctors | swap | runFunctor | finish | foreignPush | foreignQuit =>
          cases now
  · exact .inr ⟨thread, loop_quitting_origin stepped other quitting⟩

theorem loop_heard {label : EventLoop.Label τ} (heard : Heard s)
    (allowed : Enabled s (.loop label)) (timely : QuitsAfterStart s (.loop label))
    (moved : next s (.loop label) = some t) : Heard t := by
  intro asked
  by_cases quits : ∃ caller, label = .foreignQuit caller
  · obtain ⟨caller, rfl⟩ := quits
    obtain rfl := Option.some.inj moved
    exact ⟨timely, rfl⟩
  · have before := asked_origin moved (fun caller same => quits ⟨caller, same⟩) asked
    obtain ⟨started, set⟩ := heard before
    have later : label ≠ .callLoop := by
      intro same
      subst same
      have fresh : s.place = .published := allowed.1
      rw [fresh] at started
      exact started
    obtain ⟨loop, stepped, rfl⟩ := Option.map_eq_some_iff.mp moved
    exact ⟨Place.follow_started started label, loop_quit_kept stepped later set⟩

theorem next_heard {label : Label τ} (heard : Heard s) (allowed : Enabled s label)
    (timely : QuitsAfterStart s label) (moved : next s label = some t) : Heard t := by
  cases label with
  | loop label => exact loop_heard heard allowed timely moved
  | destructorQuit thread =>
      unfold next at moved
      dsimp only at moved
      split at moved
      · obtain rfl := Option.some.inj moved
        exact fun _ => ⟨timely, rfl⟩
      · cases moved
  | startLoop =>
      obtain rfl := Option.some.inj moved
      have early : s.place = .unstarted := allowed.1
      exact fun asked => absurd asked (heard.unasked (by rw [early]; exact id))
  | construct =>
      obtain rfl := Option.some.inj moved
      have early : s.place = .spawned := allowed
      exact fun asked => absurd asked (heard.unasked (by rw [early]; exact id))
  | callback quits =>
      obtain rfl := Option.some.inj moved
      have early : s.place = .constructed := allowed
      exact fun asked => absurd asked (heard.unasked (by rw [early]; exact id))
  | publish =>
      obtain rfl := Option.some.inj moved
      have early : s.place = .publishing := allowed
      exact fun asked => absurd asked (heard.unasked (by rw [early]; exact id))
  | retract =>
      obtain rfl := Option.some.inj moved
      exact fun asked => ⟨trivial, (heard asked).2⟩
  | startLoopReturns | destroy | join =>
      obtain rfl := Option.some.inj moved
      exact heard

theorem next_preserves : ((machine τ).restrict QuitsAfterStart).Preserves Heard :=
  fun _ _ _ heard allowed moved => next_heard heard allowed.1 allowed.2 moved

/-- No quit() is lost in a run whose quit() calls all come after loop() has set quit_. -/
theorem quit_not_lost
    (run : ((machine τ).restrict QuitsAfterStart).Run (created τ) labels s) : ¬ Lost s := by
  rintro ⟨returned, _, _, unset⟩
  have start : Heard (created τ) := by
    rintro (never | ⟨thread, never⟩) <;> cases never
  obtain ⟨_, set⟩ := run.invariant next_preserves start (.inl returned)
  rw [set] at unset
  cases unset

/-- A quit() that returns before loop() starts is always lost. -/
theorem early_quit_lost (returned : s.quitReturned = true) (early : s.place = .published)
    (idle : s.loop.phase = .idle) : ∃ t, (machine τ).Run s [.loop .callLoop] t ∧ Lost t := by
  refine ⟨_, Machine.Run.single ⟨early, idle⟩ rfl, ?_, rfl, rfl, rfl⟩
  exact Bool.or_eq_true_iff.mpr (.inl returned)

end Runs

section Decidability

variable [DecidableEq τ]

instance (s : State τ) : (label : EventLoop.Label τ) → Decidable (Reaches s label)
  | .callLoop => inferInstanceAs (Decidable (s.place = .published))
  | .foreignPush _ | .foreignQuit _ =>
      inferInstanceAs (Decidable (s.startLoop = .returned ∧ s.place.Alive))
  | .foreignWakeup _ => inferInstanceAs (Decidable s.place.Alive)
  | .exitLoop | .enterPoll | .pollReturns _ | .handleRead | .loopPush | .loopWakeup | .loopQuit
  | .doPendingFunctors | .swap | .runFunctor | .finish =>
      inferInstanceAs (Decidable (s.place = .inLoop))

instance (s : State τ) : (label : Label τ) → Decidable (Enabled s label)
  | .startLoop => inferInstanceAs (Decidable (s.place = .unstarted ∧ s.destructor = .uncalled))
  | .construct => inferInstanceAs (Decidable (s.place = .spawned))
  | .callback _ => inferInstanceAs (Decidable (s.place = .constructed))
  | .publish => inferInstanceAs (Decidable (s.place = .publishing))
  | .startLoopReturns =>
      inferInstanceAs (Decidable (s.startLoop = .waiting ∧ s.published = true))
  | .loop label =>
      inferInstanceAs (Decidable
        (Reaches s label ∧ (EventLoop.machine τ).enabled s.loop label))
  | .retract => inferInstanceAs (Decidable (s.place = .retracting))
  | .destroy _ => inferInstanceAs (Decidable (s.startLoop ≠ .waiting ∧ s.destructor = .uncalled))
  | .destructorQuit thread =>
      inferInstanceAs (Decidable
        (s.destructor = .quitting thread ∧ s.loop.callers thread = .free))
  | .join thread =>
      inferInstanceAs (Decidable (s.destructor = .joining thread ∧
        s.loop.callers thread = .free ∧ s.place = .finished))

instance (s : State τ) (label : Label τ) : Decidable ((machine τ).enabled s label) :=
  inferInstanceAs (Decidable (Enabled s label))

instance (s : State τ) : (label : Label τ) → Decidable (QuitsAfterStart s label)
  | .loop label =>
      match label with
      | .foreignQuit _ => inferInstanceAs (Decidable s.place.Started)
      | .callLoop | .exitLoop | .enterPoll | .pollReturns _ | .handleRead | .loopPush
      | .loopWakeup | .loopQuit | .doPendingFunctors | .swap | .runFunctor | .finish
      | .foreignPush _ | .foreignWakeup _ => isTrue trivial
  | .destructorQuit _ => inferInstanceAs (Decidable s.place.Started)
  | .startLoop | .construct | .callback _ | .publish | .startLoopReturns | .retract | .destroy _
  | .join _ => isTrue trivial

instance (s : State τ) (label : Label τ) :
    Decidable (((machine τ).restrict QuitsAfterStart).enabled s label) :=
  inferInstanceAs (Decidable (Enabled s label ∧ QuitsAfterStart s label))

instance (s : State τ) : Decidable (Lost s) :=
  inferInstanceAs (Decidable (s.quitReturned = true ∧ Enabled s (.loop .enterPoll)))

end Decidability

/-- startLoop has returned and the thread stands before its call of loop(). -/
def started : List (Label Nat) :=
  [.startLoop, .construct, .callback false, .publish, .startLoopReturns]

/-- The loop runs when the destructor calls quit(). -/
def stopped : List (Label Nat) :=
  started ++ [.loop .callLoop, .loop .enterPoll, .destroy 0, .destructorQuit 0,
    .loop (.foreignWakeup 0), .loop (.pollReturns true), .loop .handleRead,
    .loop .doPendingFunctors, .loop .swap, .loop .finish]

theorem quit_not_lost_while_polling :
    ∃ s, ((machine Nat).restrict QuitsAfterStart).Run (created Nat) stopped s ∧
      s.quitReturned = true ∧ ¬ Lost s := by
  obtain ⟨s, run, seen⟩ := ((machine Nat).restrict QuitsAfterStart).exists_run_of_play
    (created Nat) stopped (fun s => s.quitReturned) true (by decide +kernel)
  exact ⟨s, run, seen, quit_not_lost run⟩

/-- The destructor's quit() returns before the thread gets to its call of loop(). -/
theorem quit_lost_before_loop :
    ¬ ∀ (labels : List (Label Nat)) (s : State Nat),
      (machine Nat).Run (created Nat) labels s → ¬ Lost s := by
  intro never
  obtain ⟨s, run, lost⟩ := (machine Nat).exists_run_of_play (created Nat)
    (started ++ [.destroy 0, .destructorQuit 0, .loop (.foreignWakeup 0), .loop .callLoop])
    (fun s => decide (Lost s)) true (by decide +kernel)
  exact never _ s run (of_decide_eq_true lost)

end Tundra.EventLoopThread
