import Tundra.Net.EventLoopThread

set_option autoImplicit false

/- Does ~EventLoopThread join its thread? It looks at loop_, which threadFunc sets and takes
back, and joins only when it has found it set. -/
namespace Tundra.EventLoopThread

open Library

variable {τ : Type*}

/-- The thread is in the destructor, ahead of its quit() or behind the call. -/
def InDestructor (s : State τ) (thread : τ) : Prop :=
  s.destructor = .quitting thread ∨ s.destructor = .joining thread

/-- A thread calls nothing else while it is in the destructor. -/
def Outside (s : State τ) : EventLoop.Label τ → Prop
  | .foreignPush thread | .foreignQuit thread => ¬ InDestructor s thread
  | _ => True

/-- Any order of the steps. The destructor comes once, at any time, also while startLoop is
still waiting, and its thread enters it from outside the functions of the EventLoop. -/
def Interleaved (s : State τ) : Label τ → Prop
  | .destroy thread => s.destructor = .uncalled ∧ s.loop.callers thread = .free
  | .loop label => Enabled s (.loop label) ∧ Outside s label
  | label => Enabled s label

def lifetime (τ : Type*) [DecidableEq τ] : Machine (State τ) (Label τ) where
  enabled := Interleaved
  step := next

/-- The destructor has not ended with a joinable thread, and if it is about to call quit() the
loop is there. -/
structure Sound (s : State τ) : Prop where
  joined : s.destructor = .over → s.joinable = false
  alive : ∀ thread, s.destructor = .quitting thread → s.place.Alive

/-- The loop is there until the destructor's quit() has returned. -/
def Outlives (s : State τ) : Prop :=
  ∀ thread, s.destructor = .joining thread → s.loop.callers thread = .quitting → s.place.Alive

/-- The destructor of a started object finds loop_ set, and threadFunc does not end between
this test and the call of quit(). -/
def Timely (s : State τ) : Label τ → Prop
  | .destroy _ => s.joinable = true → s.published = true
  | .retract => ∀ thread, s.destructor ≠ .quitting thread
  | _ => True

/-- threadFunc does not end while the destructor is inside quit(). -/
def Patient (s : State τ) : Label τ → Prop
  | .retract => ∀ thread, s.destructor = .joining thread → s.loop.callers thread ≠ .quitting
  | _ => True

/-- loop_ points to a loop that is there. -/
def Valid (s : State τ) : Prop := s.published = true → s.place.Alive

theorem Place.follow_alive {place : Place} (alive : place.Alive) (label : EventLoop.Label τ) :
    (place.follow label).Alive := by
  cases label with
  | callLoop | exitLoop => trivial
  | enterPoll | pollReturns | handleRead | loopPush | loopWakeup | loopQuit | doPendingFunctors
  | swap | runFunctor | finish | foreignPush | foreignQuit | foreignWakeup => exact alive

section Steps

variable {s t : State τ} {label : Label τ}

/-- A step that leaves the destructor where it is and ends no loop. -/
theorem Sound.aside (sound : Sound s) (destructor : t.destructor = s.destructor)
    (joinable : t.joinable = s.joinable) (alive : s.place.Alive → t.place.Alive) : Sound t where
  joined done := by
    rw [joinable]
    exact sound.joined (destructor.symm.trans done)
  alive thread ahead := alive (sound.alive thread (destructor.symm.trans ahead))

theorem Outlives.aside (outlives : Outlives s) (destructor : t.destructor = s.destructor)
    (callers : t.loop.callers = s.loop.callers) (alive : s.place.Alive → t.place.Alive) :
    Outlives t := by
  intro thread behind inside
  rw [callers] at inside
  exact alive (outlives thread (destructor.symm.trans behind) inside)

/-- Outside the join the destructor has not ended, and outside the test it is not ahead of
its quit(). -/
theorem Sound.of_destructor (unended : t.destructor ≠ .over)
    (calm : ∀ thread, t.destructor ≠ .quitting thread) : Sound t where
  joined done := absurd done unended
  alive thread ahead := absurd ahead (calm thread)

variable [DecidableEq τ]

theorem next_valid (valid : Valid s) (allowed : Interleaved s label)
    (moved : next s label = some t) : Valid t := by
  cases label with
  | startLoop =>
      obtain rfl := Option.some.inj moved
      have early : s.place = .unstarted := allowed.1
      intro published
      have alive := valid published
      rw [early] at alive
      exact alive
  | construct | callback | publish =>
      obtain rfl := Option.some.inj moved
      exact fun _ => trivial
  | startLoopReturns | destroy | join =>
      obtain rfl := Option.some.inj moved
      exact valid
  | loop label =>
      obtain ⟨loop, _, rfl⟩ := Option.map_eq_some_iff.mp moved
      exact fun published => Place.follow_alive (valid published) label
  | retract =>
      obtain rfl := Option.some.inj moved
      exact fun published => by cases published
  | destructorQuit thread =>
      dsimp only [next] at moved
      split at moved
      · rename_i alive
        obtain ⟨loop, _, rfl⟩ := Option.map_eq_some_iff.mp moved
        exact fun _ => alive
      · cases moved

/-- The steps that can break the promise are the test of the destructor and the end of
threadFunc. -/
theorem next_sound_iff (valid : Valid s) (sound : Sound s) (allowed : Interleaved s label)
    (moved : next s label = some t) : Sound t ↔ Timely s label := by
  cases label with
  | startLoop =>
      obtain rfl := Option.some.inj moved
      have early : s.destructor = .uncalled := allowed.2
      refine iff_of_true (Sound.of_destructor ?_ ?_) trivial
      · exact fun done => by cases early.symm.trans done
      · exact fun thread ahead => by cases early.symm.trans ahead
  | construct | callback | publish =>
      obtain rfl := Option.some.inj moved
      exact iff_of_true (sound.aside rfl rfl fun _ => trivial) trivial
  | startLoopReturns =>
      obtain rfl := Option.some.inj moved
      exact iff_of_true (sound.aside rfl rfl id) trivial
  | loop label =>
      obtain ⟨loop, _, rfl⟩ := Option.map_eq_some_iff.mp moved
      exact iff_of_true (sound.aside rfl rfl fun alive => Place.follow_alive alive label) trivial
  | retract =>
      obtain rfl := Option.some.inj moved
      exact ⟨fun after thread ahead => after.alive thread ahead,
        fun calm => ⟨sound.joined, fun thread ahead => calm thread ahead⟩⟩
  | destroy thread =>
      obtain rfl := Option.some.inj moved
      by_cases published : s.published = true
      · refine iff_of_true ⟨fun done => ?_, fun _ _ => valid published⟩ fun _ => published
        dsimp only at done
        rw [if_pos published] at done
        cases done
      · have gone : (if s.published = true then Destructor.quitting thread else .over) = .over :=
          if_neg published
        constructor
        · intro after started
          have unstarted : s.joinable = false := after.joined gone
          rw [unstarted] at started
          cases started
        · intro found
          refine ⟨fun _ => ?_, fun other ahead => ?_⟩
          · exact Bool.eq_false_iff.mpr fun started => published (found started)
          · cases gone.symm.trans ahead
  | destructorQuit thread =>
      dsimp only [next] at moved
      split at moved
      · obtain ⟨loop, _, rfl⟩ := Option.map_eq_some_iff.mp moved
        refine iff_of_true (Sound.of_destructor ?_ ?_) trivial
        · exact fun done => by cases done
        · exact fun other ahead => by cases ahead
      · cases moved
  | join thread =>
      obtain rfl := Option.some.inj moved
      exact iff_of_true ⟨fun _ => rfl, fun other ahead => by cases ahead⟩ trivial

theorem next_outlives_iff (outlives : Outlives s) (allowed : Interleaved s label)
    (moved : next s label = some t) : Outlives t ↔ Patient s label := by
  cases label with
  | startLoop =>
      obtain rfl := Option.some.inj moved
      have early : s.destructor = .uncalled := allowed.2
      refine iff_of_true (fun thread behind => ?_) trivial
      cases early.symm.trans behind
  | construct | callback | publish =>
      obtain rfl := Option.some.inj moved
      exact iff_of_true (outlives.aside rfl rfl fun _ => trivial) trivial
  | startLoopReturns =>
      obtain rfl := Option.some.inj moved
      exact iff_of_true (outlives.aside rfl rfl id) trivial
  | loop label =>
      obtain ⟨loop, stepped, rfl⟩ := Option.map_eq_some_iff.mp moved
      refine iff_of_true (fun thread behind inside => Place.follow_alive ?_ label) trivial
      by_cases quits : ∃ caller, label = .foreignQuit caller
      · obtain ⟨caller, rfl⟩ := quits
        exact allowed.1.1.2
      · exact outlives thread behind
          (loop_quitting_origin stepped (fun caller same => quits ⟨caller, same⟩) inside)
  | retract =>
      obtain rfl := Option.some.inj moved
      exact Iff.rfl
  | destroy thread =>
      obtain rfl := Option.some.inj moved
      refine iff_of_true (fun other behind => ?_) trivial
      dsimp only at behind
      split at behind <;> cases behind
  | destructorQuit thread =>
      dsimp only [next] at moved
      split at moved
      · rename_i alive
        obtain ⟨loop, _, rfl⟩ := Option.map_eq_some_iff.mp moved
        exact iff_of_true (fun _ _ _ => alive) trivial
      · cases moved
  | join thread =>
      obtain rfl := Option.some.inj moved
      exact iff_of_true (fun other behind => by cases behind) trivial

/-- In every interleaving: the destructor ends with its thread joined and calls quit() on a
living loop, as long as every step is timely, and no longer. That the loop lives until this
quit() returns asks for patience as well. -/
theorem destructor_joins_iff {labels : List (Label τ)}
    (run : (lifetime τ).Run (created τ) labels s) :
    ((lifetime τ).Along (fun _ _ t => Sound t) (created τ) labels ↔
      (lifetime τ).Along (fun s label _ => Timely s label) (created τ) labels) ∧
    ((lifetime τ).Along (fun _ _ t => Outlives t) (created τ) labels ↔
      (lifetime τ).Along (fun s label _ => Patient s label) (created τ) labels) := by
  have valid : Valid (created τ) := fun published => by cases published
  have sound : Sound (created τ) :=
    .of_destructor (fun done => by cases done) (fun thread ahead => by cases ahead)
  have outlives : Outlives (created τ) := fun thread behind => by cases behind
  constructor
  · have kept (s : State τ) (label : Label τ) (t : State τ) (before : Valid s ∧ Sound s)
        (allowed : Interleaved s label) (moved : next s label = some t) (after : Sound t) :
        Valid t ∧ Sound t := ⟨next_valid before.1 allowed moved, after⟩
    exact run.along_iff_of_kept kept
      (fun s label t before allowed moved => next_sound_iff before.1 before.2 allowed moved)
      ⟨valid, sound⟩
  · exact run.along_iff_of_kept (fun s label t _ _ _ after => after)
      (fun s label t before allowed moved => next_outlives_iff before allowed moved) outlives

end Steps

/-- The destructor is ahead of its quit(). -/
def isQuitting : Destructor τ → Bool
  | .quitting _ => true
  | .uncalled | .joining _ | .over => false

theorem isQuitting_iff (d : Destructor τ) :
    isQuitting d = false ↔ ∀ thread, d ≠ .quitting thread := by
  cases d <;> simp [isQuitting]

section Decidability

variable [DecidableEq τ]

instance (s : State τ) (thread : τ) : Decidable (InDestructor s thread) :=
  inferInstanceAs (Decidable (s.destructor = .quitting thread ∨ s.destructor = .joining thread))

instance (s : State τ) : (label : EventLoop.Label τ) → Decidable (Outside s label)
  | .foreignPush thread | .foreignQuit thread =>
      inferInstanceAs (Decidable (¬ InDestructor s thread))
  | .callLoop | .exitLoop | .enterPoll | .pollReturns _ | .handleRead | .loopPush | .loopWakeup
  | .loopQuit | .doPendingFunctors | .swap | .runFunctor | .finish | .foreignWakeup _ =>
      isTrue trivial

instance (s : State τ) : (label : Label τ) → Decidable (Interleaved s label)
  | .destroy thread =>
      inferInstanceAs (Decidable (s.destructor = .uncalled ∧ s.loop.callers thread = .free))
  | .loop label => inferInstanceAs (Decidable (Enabled s (.loop label) ∧ Outside s label))
  | .startLoop => inferInstanceAs (Decidable (Enabled s .startLoop))
  | .construct => inferInstanceAs (Decidable (Enabled s .construct))
  | .callback quits => inferInstanceAs (Decidable (Enabled s (.callback quits)))
  | .publish => inferInstanceAs (Decidable (Enabled s .publish))
  | .startLoopReturns => inferInstanceAs (Decidable (Enabled s .startLoopReturns))
  | .retract => inferInstanceAs (Decidable (Enabled s .retract))
  | .destructorQuit thread => inferInstanceAs (Decidable (Enabled s (.destructorQuit thread)))
  | .join thread => inferInstanceAs (Decidable (Enabled s (.join thread)))

instance (s : State τ) (label : Label τ) : Decidable ((lifetime τ).enabled s label) :=
  inferInstanceAs (Decidable (Interleaved s label))

instance (s : State τ) : (label : Label τ) → Decidable (Timely s label)
  | .destroy _ => inferInstanceAs (Decidable (s.joinable = true → s.published = true))
  | .retract => decidable_of_iff _ (isQuitting_iff s.destructor)
  | .startLoop | .construct | .callback _ | .publish | .startLoopReturns | .loop _
  | .destructorQuit _ | .join _ => isTrue trivial

end Decidability

/-- The user's own quit() ends the loop. -/
def ended : List (Label Nat) :=
  [.loop .callLoop, .loop .enterPoll, .loop (.foreignQuit 1), .loop (.foreignWakeup 1),
    .loop (.pollReturns true), .loop .handleRead, .loop .doPendingFunctors, .loop .swap,
    .loop .finish, .loop .exitLoop]

/-- The loop runs when the destructor comes, and ends by its quit(). -/
theorem destructor_joins_running :
    ∃ s, (lifetime Nat).Run (created Nat) (stopped ++ [.loop .exitLoop, .retract, .join 0]) s ∧
      s.destructor = .over ∧
      (lifetime Nat).Along (fun _ _ t => Sound t) (created Nat)
        (stopped ++ [.loop .exitLoop, .retract, .join 0]) := by
  obtain ⟨s, run, done⟩ := (lifetime Nat).exists_run_of_play (created Nat)
    (stopped ++ [.loop .exitLoop, .retract, .join 0]) (fun s => s.destructor) .over
    (by decide +kernel)
  exact ⟨s, run, done, (destructor_joins_iff run).1.mpr (by decide +kernel)⟩

/-- The loop has ended by the user's quit() when the destructor comes: it does not join. And
when the loop ends behind the destructor's test, its quit() comes too late. -/
theorem destructor_joins_fails :
    (∃ s, (lifetime Nat).Run (created Nat) (started ++ ended ++ [.retract, .destroy 0]) s ∧
      s.destructor = .over ∧ s.joinable = true ∧ ¬ Sound s) ∧
    ∃ s, (lifetime Nat).Run (created Nat) (started ++ ended ++ [.destroy 0, .retract]) s ∧
      s.destructor = .quitting 0 ∧ ¬ s.place.Alive ∧ ¬ Sound s := by
  constructor
  · obtain ⟨s, run, seen⟩ := (lifetime Nat).exists_run_of_play (created Nat)
      (started ++ ended ++ [.retract, .destroy 0]) (fun s => (s.destructor, s.joinable))
      (.over, true) (by decide +kernel)
    obtain ⟨done, joinable⟩ := Prod.mk.inj seen
    refine ⟨s, run, done, joinable, fun sound => ?_⟩
    rw [sound.joined done] at joinable
    cases joinable
  · obtain ⟨s, run, seen⟩ := (lifetime Nat).exists_run_of_play (created Nat)
      (started ++ ended ++ [.destroy 0, .retract]) (fun s => (s.destructor, s.place))
      (.quitting 0, .finished) (by decide +kernel)
    obtain ⟨ahead, place⟩ := Prod.mk.inj seen
    have dead : ¬ s.place.Alive := by
      rw [place]
      exact id
    exact ⟨s, run, ahead, dead, fun sound => dead (sound.alive 0 ahead)⟩

end Tundra.EventLoopThread
