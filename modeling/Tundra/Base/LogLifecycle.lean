import Mathlib.Data.Int.Order.Basic
import Tundra.Library.Machine

set_option autoImplicit false

/- AsyncLogger::start, stop and the destructor on the thread of the owner, with run() on the
thread that start makes and the CountDownLatch between them. -/
namespace Tundra.LogLifecycle

open Library

/-- Where the owner is: outside, in start() ahead of the new thread, in latch_.wait() ahead
of its lock, asleep or woken there, or in stop() ahead of notify_all and of join. `last`
tells that stop() was called by the destructor. -/
inductive Owner
  | idle
  | starting
  | entering
  | sleeping
  | notified
  | stopping (last : Bool)
  | joining (last : Bool)
  | destroyed
deriving DecidableEq

/-- Where run() is: ahead of its assertion, ahead of latch_.countDown(), in its loop, or at
its end. -/
inductive Background
  | created
  | counting
  | looping
  | finished
deriving DecidableEq

/-- `background` is none as long as thread_ is not joinable. `starts` counts the calls of
start(). -/
structure State where
  stop : Bool
  count : Int
  owner : Owner
  background : Option Background
  starts : Nat
deriving DecidableEq

inductive Label
  | start
  | makeThread
  | enterWait
  | wakeUp
  | stop
  | notifyAll
  | join
  | destroy
  | assertRunning
  | countDown
  | leaveLoop
deriving DecidableEq

/-- The constructor: the latch is to be counted down once. -/
def created : State := ⟨true, 1, .idle, none, 0⟩

/-- The test of latch_.wait(), under its lock. -/
def State.test (s : State) : State :=
  { s with owner := if s.count ≤ 0 then .idle else .sleeping }

def next (s : State) : Label → Option State
  | .start => some { s with stop := false, owner := .starting, starts := s.starts + 1 }
  | .makeThread =>
      -- an assignment to a std::thread that is joinable ends the process
      match s.background with
      | none => some { s with background := some .created, owner := .entering }
      | some _ => none
  | .enterWait => some s.test
  | .wakeUp => some s.test
  | .stop => some { s with stop := true, owner := .stopping false }
  | .notifyAll =>
      match s.owner with
      | .stopping last => some { s with owner := .joining last }
      | _ => none
  | .join =>
      -- join() throws when thread_ is not joinable
      match s.owner, s.background with
      | .joining last, some _ => some { s with
          background := none
          owner := if last then .destroyed else .idle }
      | _, _ => none
  | .destroy =>
      if s.stop then some { s with owner := .destroyed }
      else some { s with stop := true, owner := .stopping true }
  | .assertRunning =>
      if s.stop then none else some { s with background := some .counting }
  | .countDown => some { s with
      count := s.count - 1
      owner := if s.count - 1 = 0 ∧ s.owner = .sleeping then .notified else s.owner
      background := some .looping }
  | .leaveLoop => some { s with background := some .finished }

def Owner.isStopping : Owner → Bool
  | .stopping _ => true
  | .idle | .starting | .entering | .sleeping | .notified | .joining _ | .destroyed => false

def Owner.isJoining : Owner → Bool
  | .joining _ => true
  | .idle | .starting | .entering | .sleeping | .notified | .stopping _ | .destroyed => false

/-- A thread may wake from its wait for no reason. join() waits for the end of the thread, if
there is one. -/
def Enabled (s : State) : Label → Prop
  | .start => s.owner = .idle
  | .makeThread => s.owner = .starting
  | .enterWait => s.owner = .entering
  | .wakeUp => s.owner = .sleeping ∨ s.owner = .notified
  | .stop => s.owner = .idle
  | .notifyAll => s.owner.isStopping = true
  | .join => s.owner.isJoining = true ∧
      (s.background = some .finished ∨ s.background = none)
  | .destroy => s.owner = .idle
  | .assertRunning => s.background = some .created
  | .countDown => s.background = some .counting
  | .leaveLoop => s.background = some .looping ∧ s.stop = true

instance (s : State) : (label : Label) → Decidable (Enabled s label)
  | .start => inferInstanceAs (Decidable (s.owner = .idle))
  | .makeThread => inferInstanceAs (Decidable (s.owner = .starting))
  | .enterWait => inferInstanceAs (Decidable (s.owner = .entering))
  | .wakeUp => inferInstanceAs (Decidable (s.owner = .sleeping ∨ s.owner = .notified))
  | .stop => inferInstanceAs (Decidable (s.owner = .idle))
  | .notifyAll => inferInstanceAs (Decidable (s.owner.isStopping = true))
  | .join => inferInstanceAs (Decidable (s.owner.isJoining = true ∧
      (s.background = some .finished ∨ s.background = none)))
  | .destroy => inferInstanceAs (Decidable (s.owner = .idle))
  | .assertRunning => inferInstanceAs (Decidable (s.background = some .created))
  | .countDown => inferInstanceAs (Decidable (s.background = some .counting))
  | .leaveLoop => inferInstanceAs
      (Decidable (s.background = some .looping ∧ s.stop = true))

def machine : Machine State Label where
  enabled := Enabled
  step := next

instance (s : State) (label : Label) : Decidable (machine.enabled s label) :=
  inferInstanceAs (Decidable (Enabled s label))

/-- The owner starts a logger that is not running and stops one that is; the functions do not
look. -/
def Orderly (s : State) : Label → Prop
  | .start => s.background = none
  | .stop => s.background ≠ none
  | .makeThread | .enterWait | .wakeUp | .notifyAll | .join | .destroy | .assertRunning
  | .countDown | .leaveLoop => True

instance (s : State) : (label : Label) → Decidable (Orderly s label)
  | .start => inferInstanceAs (Decidable (s.background = none))
  | .stop => inferInstanceAs (Decidable (s.background ≠ none))
  | .makeThread | .enterWait | .wakeUp | .notifyAll | .join | .destroy | .assertRunning
  | .countDown | .leaveLoop => inferInstanceAs (Decidable True)

def orderly : Machine State Label := machine.restrict Orderly

instance (s : State) (label : Label) : Decidable (orderly.enabled s label) :=
  inferInstanceAs (Decidable (Enabled s label ∧ Orderly s label))

/-- Which places of the owner go with which thread and which value of stop_. -/
def Fits (s : State) : Prop :=
  match s.owner with
  | .idle => s.background = none ∧ s.stop = true ∨ s.background ≠ none ∧ s.stop = false
  | .starting => s.background = none ∧ s.stop = false
  | .entering | .sleeping | .notified => s.background ≠ none ∧ s.stop = false
  | .stopping _ | .joining _ => s.background ≠ none ∧ s.stop = true
  | .destroyed => s.background = none ∧ s.stop = true

/-- start() is under way for the first time, and run() has not counted the latch down. -/
def Starting (s : State) : Prop :=
  s.owner = .starting ∨ (s.owner = .entering ∨ s.owner = .sleeping) ∧
    (s.background = some .created ∨ s.background = some .counting)

/-- The latch has not been counted down. -/
def Shut (s : State) : Prop :=
  s.starts = 0 ∧ (s.owner = .idle ∨ s.owner = .destroyed) ∧ s.background = none ∨
    s.starts = 1 ∧ Starting s

/-- The first run() has counted it down, and it holds nobody back any more. -/
structure Opened (s : State) : Prop where
  awake : s.owner ≠ .sleeping
  started : 1 ≤ s.starts
  first : s.starts = 1 → s.owner ≠ .starting ∧ s.background ≠ some .created ∧
    s.background ≠ some .counting

structure Invariant (s : State) : Prop where
  fits : Fits s
  count : s.count ≤ 1
  shut : 0 < s.count → Shut s
  opened : s.count ≤ 0 → Opened s

theorem created_invariant : Invariant created :=
  ⟨Or.inl ⟨rfl, rfl⟩, Int.le_refl 1, fun _ => Or.inl ⟨rfl, Or.inl rfl, rfl⟩,
    fun zero => absurd zero (by decide)⟩

section

variable {s t : State}

/-- In wait() with the latch shut, the first run() is ahead of it. -/
theorem Shut.waiting (shut : Shut s)
    (waits : s.owner = .entering ∨ s.owner = .sleeping ∨ s.owner = .notified) :
    s.starts = 1 ∧ (s.background = some .created ∨ s.background = some .counting) := by
  rcases shut with ⟨_, outside, _⟩ | ⟨one, starting | ⟨_, ahead⟩⟩
  · rcases waits with here | here | here <;> rcases outside with there | there <;>
      cases here.symm.trans there
  · rcases waits with here | here | here <;> cases here.symm.trans starting
  · exact ⟨one, ahead⟩

/-- The owner leaves wait() when the latch is open, and sleeps when it is shut. -/
theorem test_invariant (inv : Invariant s) (held : s.background ≠ none) (running : s.stop = false)
    (waits : s.owner = .entering ∨ s.owner = .sleeping ∨ s.owner = .notified) :
    Invariant s.test := by
  by_cases zero : s.count ≤ 0
  · have same : s.test = { s with owner := .idle } := by rw [State.test, if_pos zero]
    have opened := inv.opened zero
    rw [same]
    refine ⟨Or.inr ⟨held, running⟩, inv.count, fun positive => absurd positive (by simpa), ?_⟩
    intro _
    exact ⟨by simp, opened.started, fun one => ⟨by simp, (opened.first one).2⟩⟩
  · have same : s.test = { s with owner := .sleeping } := by rw [State.test, if_neg zero]
    obtain ⟨one, ahead⟩ := (inv.shut (by omega)).waiting waits
    rw [same]
    refine ⟨⟨held, running⟩, inv.count, ?_, fun opens => absurd opens zero⟩
    intro _
    exact Or.inr ⟨one, Or.inr ⟨Or.inr rfl, ahead⟩⟩

/-- A step that changes neither the latch nor the number of starts. -/
theorem Invariant.moved (inv : Invariant s) (stop : Bool) (owner : Owner)
    (background : Option Background)
    (fits : Fits { s with stop := stop, owner := owner, background := background })
    (shut : Shut s → Shut { s with stop := stop, owner := owner, background := background })
    (opened : Opened s → Opened { s with stop := stop, owner := owner, background := background }) :
    Invariant { s with stop := stop, owner := owner, background := background } :=
  ⟨fits, inv.count, fun positive => shut (inv.shut positive), fun zero => opened (inv.opened zero)⟩

/-- Outside start() and its wait the latch is open, once the logger has been started. -/
theorem Shut.outside (shut : Shut s) (held : s.background ≠ none)
    (elsewhere : s.owner ≠ .starting ∧ s.owner ≠ .entering ∧ s.owner ≠ .sleeping) : False := by
  rcases shut with ⟨_, _, none⟩ | ⟨_, starting | ⟨entering | sleeping, _⟩⟩
  · exact held none
  · exact elsewhere.1 starting
  · exact elsewhere.2.1 entering
  · exact elsewhere.2.2 sleeping

theorem Fits.further {here : Background} (fits : Fits s) (at_ : s.background = some here)
    (there : Background) : Fits { s with background := some there } := by
  rw [Fits] at fits ⊢
  cases owner : s.owner <;> simp_all

/-- With the latch shut, a thread that exists is waited for. -/
theorem Shut.held {here : Background} (shut : Shut s) (fits : Fits s)
    (at_ : s.background = some here) :
    s.starts = 1 ∧ (s.owner = .entering ∨ s.owner = .sleeping) := by
  rcases shut with ⟨_, _, none⟩ | ⟨one, starting | ⟨waits, _⟩⟩
  · cases at_.symm.trans none
  · rw [Fits, starting] at fits
    cases at_.symm.trans fits.1
  · exact ⟨one, waits⟩

theorem Shut.ahead (shut : Shut s) (fits : Fits s) : s.background ≠ some .looping := by
  intro looping
  rcases shut with ⟨_, _, none⟩ | ⟨_, starting | ⟨_, created | counting⟩⟩
  · cases looping.symm.trans none
  · rw [Fits, starting] at fits
    cases looping.symm.trans fits.1
  · cases looping.symm.trans created
  · cases looping.symm.trans counting

theorem next_invariant (label : Label) (inv : Invariant s) (enabled : Enabled s label)
    (fair : Orderly s label) (moved : next s label = some t) : Invariant t := by
  have fits := inv.fits
  cases label with
  | start =>
      have idle : s.owner = .idle := enabled
      have none : s.background = .none := fair
      cases moved
      refine ⟨⟨none, rfl⟩, inv.count, ?_, ?_⟩
      · intro positive
        rcases inv.shut positive with ⟨zero, _⟩ | ⟨_, starting | ⟨entering | sleeping, _⟩⟩
        · exact Or.inr ⟨congrArg (· + 1) zero, Or.inl rfl⟩
        · cases idle.symm.trans starting
        · cases idle.symm.trans entering
        · cases idle.symm.trans sleeping
      · intro zero
        have started := (inv.opened zero).started
        refine ⟨by simp, Nat.le_add_left 1 _, ?_⟩
        intro one
        dsimp only at one
        omega
  | makeThread =>
      have starting : s.owner = .starting := enabled
      rw [Fits, starting] at fits
      simp only [next, fits.1, Option.some.injEq] at moved
      subst moved
      refine inv.moved s.stop .entering (some .created) ⟨by simp, fits.2⟩ ?_ ?_
      · rintro (⟨_, idle | destroyed, _⟩ | ⟨one, _⟩)
        · cases starting.symm.trans idle
        · cases starting.symm.trans destroyed
        · exact Or.inr ⟨one, Or.inr ⟨Or.inl rfl, Or.inl rfl⟩⟩
      · intro opened
        exact ⟨by simp, opened.started, fun one => absurd starting (opened.first one).1⟩
  | enterWait =>
      have entering : s.owner = .entering := enabled
      rw [Fits, entering] at fits
      cases moved
      exact test_invariant inv fits.1 fits.2 (Or.inl entering)
  | wakeUp =>
      cases moved
      rcases enabled with sleeping | notified
      · rw [Fits, sleeping] at fits
        exact test_invariant inv fits.1 fits.2 (Or.inr (Or.inl sleeping))
      · rw [Fits, notified] at fits
        exact test_invariant inv fits.1 fits.2 (Or.inr (Or.inr notified))
  | stop =>
      have idle : s.owner = .idle := enabled
      have held : s.background ≠ none := fair
      cases moved
      refine inv.moved true (.stopping false) s.background ⟨held, rfl⟩ ?_ ?_
      · intro shut
        exact (shut.outside held (by simp [idle])).elim
      · intro opened
        exact ⟨by simp, opened.started, fun one => ⟨by simp, (opened.first one).2⟩⟩
  | notifyAll =>
      cases at_ : s.owner with
      | stopping last =>
          rw [Fits, at_] at fits
          simp only [next, at_, Option.some.injEq] at moved
          subst moved
          refine inv.moved s.stop (.joining last) s.background fits ?_ ?_
          · intro shut
            exact (shut.outside fits.1 (by simp [at_])).elim
          · intro opened
            exact ⟨by simp, opened.started, fun one => ⟨by simp, (opened.first one).2⟩⟩
      | idle | starting | entering | sleeping | notified | joining | destroyed =>
          rw [Enabled, at_] at enabled
          cases enabled
  | join =>
      cases at_ : s.owner with
      | joining last =>
          rw [Fits, at_] at fits
          obtain ⟨here, thread⟩ := Option.ne_none_iff_exists'.mp fits.1
          simp only [next, at_, thread, Option.some.injEq] at moved
          subst moved
          refine inv.moved s.stop (if last then .destroyed else .idle) none ?_ ?_ ?_
          · cases last with
            | true => exact ⟨rfl, fits.2⟩
            | false => exact Or.inl ⟨rfl, fits.2⟩
          · intro shut
            exact (shut.outside fits.1 (by simp [at_])).elim
          · intro opened
            cases last with
            | true => exact ⟨by simp, opened.started, fun _ => ⟨by simp, by simp, by simp⟩⟩
            | false => exact ⟨by simp, opened.started, fun _ => ⟨by simp, by simp, by simp⟩⟩
      | idle | starting | entering | sleeping | notified | stopping | destroyed =>
          rw [Enabled, at_] at enabled
          cases enabled.1
  | destroy =>
      have idle : s.owner = .idle := enabled
      rw [Fits, idle] at fits
      rcases fits with ⟨none, stopped⟩ | ⟨held, running⟩
      · rw [next, if_pos stopped] at moved
        cases moved
        refine inv.moved s.stop .destroyed s.background ⟨none, stopped⟩ ?_ ?_
        · rintro (⟨zero, _, _⟩ | ⟨_, starting | ⟨entering | sleeping, _⟩⟩)
          · exact Or.inl ⟨zero, Or.inr rfl, none⟩
          · cases idle.symm.trans starting
          · cases idle.symm.trans entering
          · cases idle.symm.trans sleeping
        · intro opened
          exact ⟨by simp, opened.started, fun one => ⟨by simp, (opened.first one).2⟩⟩
      · rw [next, if_neg (by simp [running])] at moved
        cases moved
        refine inv.moved true (.stopping true) s.background ⟨held, rfl⟩ ?_ ?_
        · intro shut
          exact (shut.outside held (by simp [idle])).elim
        · intro opened
          exact ⟨by simp, opened.started, fun one => ⟨by simp, (opened.first one).2⟩⟩
  | assertRunning =>
      have created : s.background = some .created := enabled
      by_cases stopped : s.stop = true
      · rw [next, if_pos stopped] at moved
        cases moved
      · rw [next, if_neg stopped] at moved
        cases moved
        refine inv.moved s.stop s.owner (some .counting) (fits.further created .counting) ?_ ?_
        · intro shut
          obtain ⟨one, waits⟩ := shut.held fits created
          exact Or.inr ⟨one, Or.inr ⟨waits, Or.inr rfl⟩⟩
        · intro opened
          exact ⟨opened.awake, opened.started, fun one => absurd created (opened.first one).2.1⟩
  | countDown =>
      have counting : s.background = some .counting := enabled
      cases moved
      by_cases zero : s.count ≤ 0
      · have opened := inv.opened zero
        have same : (if s.count - 1 = 0 ∧ s.owner = .sleeping then Owner.notified else s.owner) =
            s.owner := if_neg fun both => opened.awake both.2
        rw [same]
        refine ⟨fits.further counting .looping, by dsimp only; omega, ?_, ?_⟩
        · intro positive
          dsimp only at positive
          omega
        · intro _
          exact ⟨opened.awake, opened.started,
            fun one => absurd counting (opened.first one).2.2⟩
      · -- the first run(): whoever sleeps on the latch is woken
        have bound := inv.count
        have last : s.count = 1 := by omega
        obtain ⟨one, waits⟩ := (inv.shut (by omega)).held fits counting
        have stopped : s.stop = false := by
          rcases waits with entering | sleeping
          · rw [Fits, entering] at fits
            exact fits.2
          · rw [Fits, sleeping] at fits
            exact fits.2
        refine ⟨?_, by dsimp only; omega, ?_, ?_⟩
        · rcases waits with entering | sleeping
          · simp [Fits, entering, stopped]
          · simp [Fits, sleeping, last, stopped]
        · intro positive
          dsimp only at positive
          omega
        · intro _
          rcases waits with entering | sleeping
          · exact ⟨by simp [entering], Nat.le_of_eq one.symm, fun _ => by simp [entering]⟩
          · exact ⟨by simp [sleeping, last], Nat.le_of_eq one.symm,
              fun _ => by simp [sleeping, last]⟩
  | leaveLoop =>
      obtain ⟨looping, _⟩ := enabled
      cases moved
      refine inv.moved s.stop s.owner (some .finished) (fits.further looping .finished) ?_ ?_
      · intro shut
        exact absurd looping (shut.ahead fits)
      · intro opened
        exact ⟨opened.awake, opened.started, fun one => ⟨(opened.first one).1, by simp, by simp⟩⟩

theorem next_preserves : orderly.Preserves Invariant :=
  fun _ label _ inv enabled moved => next_invariant label inv enabled.1 enabled.2 moved

theorem run_invariant {labels : List Label} (run : orderly.Run created labels s) : Invariant s :=
  run.invariant next_preserves created_invariant

/-- No wake-up is lost: as long as the owner sleeps on the latch, the first run() is ahead
of its countDown(). -/
theorem Invariant.awaited (inv : Invariant s) (sleeping : s.owner = .sleeping) :
    s.count = 1 ∧ (s.background = some .created ∨ s.background = some .counting) := by
  have bound := inv.count
  by_cases zero : s.count ≤ 0
  · exact absurd sleeping (inv.opened zero).awake
  · exact ⟨by omega, ((inv.shut (by omega)).waiting (Or.inr (Or.inl sleeping))).2⟩

/-- The first run() finds stop_ unset, since start() waits for it. -/
theorem Invariant.running (inv : Invariant s) (once : s.starts ≤ 1)
    (created : s.background = some .created) : s.stop = false := by
  have fits := inv.fits
  by_cases zero : s.count ≤ 0
  · have opened := inv.opened zero
    exact absurd created (opened.first (Nat.le_antisymm once opened.started)).2.1
  · rcases ((inv.shut (by omega)).held fits created).2 with entering | sleeping
    · rw [Fits, entering] at fits
      exact fits.2
    · rw [Fits, sleeping] at fits
      exact fits.2

theorem Invariant.succeeds (inv : Invariant s) (once : s.starts ≤ 1) (label : Label)
    (enabled : Enabled s label) : ∃ t, next s label = some t := by
  have fits := inv.fits
  cases label with
  | start | enterWait | wakeUp | stop | countDown | leaveLoop => exact ⟨_, rfl⟩
  | makeThread =>
      have starting : s.owner = .starting := enabled
      rw [Fits, starting] at fits
      exact ⟨_, by rw [next, fits.1]⟩
  | notifyAll =>
      cases at_ : s.owner with
      | stopping last => exact ⟨_, by rw [next, at_]⟩
      | idle | starting | entering | sleeping | notified | joining | destroyed =>
          rw [Enabled, at_] at enabled
          cases enabled
  | join =>
      cases at_ : s.owner with
      | joining last =>
          rw [Fits, at_] at fits
          obtain ⟨here, thread⟩ := Option.ne_none_iff_exists'.mp fits.1
          exact ⟨_, by rw [next, at_, thread]⟩
      | idle | starting | entering | sleeping | notified | stopping | destroyed =>
          rw [Enabled, at_] at enabled
          cases enabled.1
  | destroy =>
      rw [next]
      split <;> exact ⟨_, rfl⟩
  | assertRunning =>
      have running := inv.running once enabled
      exact ⟨_, by rw [next, if_neg (by simp [running])]⟩

/-- The steps between the calls of the owner. -/
def Inner : Label → Prop
  | .start | .stop | .destroy => False
  | .makeThread | .enterWait | .wakeUp | .notifyAll | .join | .assertRunning | .countDown
  | .leaveLoop => True

theorem Inner.orderly {label : Label} (inner : Inner label) : Orderly s label := by
  cases label with
  | start | stop | destroy => cases inner
  | makeThread | enterWait | wakeUp | notifyAll | join | assertRunning | countDown
  | leaveLoop => trivial

theorem next_starts (label : Label) (inner : Inner label) (moved : next s label = some t) :
    t.starts = s.starts := by
  cases label with
  | start | stop | destroy => cases inner
  | enterWait | wakeUp | countDown | leaveLoop =>
      cases moved
      rfl
  | makeThread | notifyAll | join | assertRunning =>
      simp only [next] at moved
      split at moved
      all_goals
        cases moved
        try rfl

/-- How far run() is from its end. -/
def Background.distance : Background → Nat
  | .created => 3
  | .counting => 2
  | .looping => 1
  | .finished => 0

def State.distance (s : State) : Nat := (s.background.map Background.distance).getD 0

/-- How far the owner is from the end of its call. -/
def rank (s : State) : Nat :=
  match s.owner with
  | .idle | .destroyed => 0
  | .starting => 8
  | .entering => s.distance + 4
  | .sleeping => s.distance + 3
  | .notified | .stopping _ => s.distance + 2
  | .joining _ => s.distance + 1

theorem Invariant.lower (inv : Invariant s) (once : s.starts ≤ 1) (label : Label)
    (inner : Inner label) (enabled : Enabled s label)
    (lower : ∀ t, next s label = some t → rank t < rank s) :
    ∃ label t, Inner label ∧ orderly.enabled s label ∧ orderly.step s label = some t ∧
      (Invariant t ∧ t.starts ≤ 1) ∧ rank t < rank s := by
  obtain ⟨t, moved⟩ := inv.succeeds once label enabled
  exact ⟨label, t, inner, ⟨enabled, inner.orderly⟩, moved,
    ⟨next_invariant label inv enabled inner.orderly moved,
      by rw [next_starts label inner moved]; exact once⟩,
    lower t moved⟩

/-- Some step brings the owner nearer to the end of its call. -/
theorem Invariant.progress (inv : Invariant s) (once : s.starts ≤ 1) (busy : rank s ≠ 0) :
    ∃ label t, Inner label ∧ orderly.enabled s label ∧ orderly.step s label = some t ∧
      (Invariant t ∧ t.starts ≤ 1) ∧ rank t < rank s := by
  have fits := inv.fits
  cases at_ : s.owner with
  | idle | destroyed =>
      rw [rank, at_] at busy
      exact absurd rfl busy
  | starting =>
      rw [Fits, at_] at fits
      refine inv.lower once .makeThread trivial at_ ?_
      intro t moved
      rw [next, fits.1] at moved
      cases moved
      simp [rank, at_, State.distance, Background.distance]
  | entering =>
      refine inv.lower once .enterWait trivial at_ ?_
      intro t moved
      cases moved
      by_cases zero : s.count ≤ 0 <;> simp [rank, at_, State.test, State.distance, zero]
  | sleeping =>
      obtain ⟨one, created | counting⟩ := inv.awaited at_
      · refine inv.lower once .assertRunning trivial created ?_
        intro t moved
        rw [next, if_neg (by simp [inv.running once created])] at moved
        cases moved
        simp [rank, at_, State.distance, created, Background.distance]
      · refine inv.lower once .countDown trivial counting ?_
        intro t moved
        cases moved
        simp [rank, at_, one, State.distance, counting, Background.distance]
  | notified =>
      refine inv.lower once .wakeUp trivial (Or.inr at_) ?_
      intro t moved
      cases moved
      have zero : s.count ≤ 0 := by
        by_contra positive
        rcases inv.shut (by omega) with
          ⟨_, idle | gone, _⟩ | ⟨_, starting | ⟨entering | sleeping, _⟩⟩
        · cases at_.symm.trans idle
        · cases at_.symm.trans gone
        · cases at_.symm.trans starting
        · cases at_.symm.trans entering
        · cases at_.symm.trans sleeping
      simp [rank, at_, State.test, zero]
  | stopping last =>
      refine inv.lower once .notifyAll trivial (by simp [Enabled, at_, Owner.isStopping]) ?_
      intro t moved
      rw [next, at_] at moved
      cases moved
      simp [rank, at_, State.distance]
  | joining last =>
      rw [Fits, at_] at fits
      have zero : s.count ≤ 0 := by
        by_contra positive
        exact (inv.shut (by omega)).outside fits.1 (by simp [at_])
      have opened := inv.opened zero
      obtain ⟨_, created, counting⟩ := opened.first (Nat.le_antisymm once opened.started)
      cases thread : s.background with
      | none => exact absurd thread fits.1
      | some here =>
          cases here with
          | created => exact absurd thread created
          | counting => exact absurd thread counting
          | looping =>
              refine inv.lower once .leaveLoop trivial ⟨thread, fits.2⟩ ?_
              intro t moved
              cases moved
              simp [rank, at_, State.distance, thread, Background.distance]
          | finished =>
              refine inv.lower once .join trivial
                ⟨by simp [at_, Owner.isJoining], Or.inl thread⟩ ?_
              intro t moved
              rw [next, at_, thread] at moved
              cases moved
              cases last <;> simp [rank, at_]

end

/-- The owner comes out of its call, with steps of the two threads only. -/
def Returns (s : State) : Prop :=
  ∃ labels t, orderly.Run s labels t ∧ (∀ label ∈ labels, Inner label) ∧
    (t.owner = .idle ∨ t.owner = .destroyed)

/-- stop() on a logger that has not been started fails in join(). -/
example : (machine.play created [.stop, .notifyAll]).map (fun s => (next s .join).isSome) =
    some false := by
  decide

/-- A logger that is started once, and whose owner stops it only while it runs, never fails its
assertions and never gets stuck, whatever the two threads do. The latch is counted down once and
for all, so a second start() does not wait for its thread, and stop() can overtake the assertion
of run(). -/
theorem start_safe_iff (most : Nat) :
    (∀ labels s, orderly.Run created labels s → s.starts ≤ most →
      (∀ label, orderly.enabled s label → ∃ t, orderly.step s label = some t) ∧ Returns s) ↔
      most ≤ 1 := by
  constructor
  · intro safe
    by_contra many
    obtain ⟨s, run, seen⟩ := Machine.exists_run_of_play orderly created
      [.start, .makeThread, .enterWait, .assertRunning, .countDown, .wakeUp, .stop, .notifyAll,
        .leaveLoop, .join, .start, .makeThread, .enterWait, .stop]
      id ⟨true, 0, .stopping false, some .created, 2⟩ (by decide)
    cases seen
    obtain ⟨t, moved⟩ := (safe _ _ run (by dsimp only; omega)).1 .assertRunning ⟨rfl, trivial⟩
    cases moved
  · intro once labels s run few
    have inv := run_invariant run
    have single := Nat.le_trans few once
    refine ⟨fun label enabled => inv.succeeds single label enabled.1, ?_⟩
    have lower (s : State) (known : Invariant s ∧ s.starts ≤ 1) := known.1.progress known.2
    obtain ⟨inside, t, onward, inner, _, lowest⟩ :=
      Machine.exists_run_lowered rank lower ⟨inv, single⟩
    refine ⟨inside, t, onward, inner, ?_⟩
    cases at_ : t.owner with
    | idle => exact Or.inl rfl
    | destroyed => exact Or.inr rfl
    | starting | entering | sleeping | notified | stopping | joining =>
        rw [rank, at_] at lowest
        cases lowest

end Tundra.LogLifecycle
