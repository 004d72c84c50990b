import Tundra.Library.Refinement
import Tundra.Net.TimerCancel

set_option autoImplicit false

/- addTimer and cancel called by any thread: EventLoop::runInLoop runs addTimerInLoop and
cancelInLoop at once on the loop's own thread and queues them for it on the others. addTimer
reads the sequence number of its Timer after that, when the loop may be done with it. -/
namespace Tundra.TimerThreads

open Library

/-- What is passed to runInLoop. `other` is whatever else the loop's functors do. -/
inductive Functor
  | addTimerInLoop (timer : ActiveTimer)
  | cancelInLoop (timer : ActiveTimer)
  | other
deriving DecidableEq

/-- How far a thread is in addTimer: it has made the Timer, or has also passed it on and
is about to read it for the TimerId. -/
inductive Call
  | outside
  | made (timer : ActiveTimer)
  | handed (timer : ActiveTimer)
deriving DecidableEq

/-- The caller `none` is the loop's own thread. `functors` is what is left of the batch of
doPendingFunctors, `returned` the TimerIds that addTimer has returned. -/
structure State (τ : Type*) where
  timers : TimerQueue
  pendingFunctors : List Functor
  functors : List Functor
  calls : Option τ → Call
  returned : List ActiveTimer

inductive Label (τ : Type*)
  | newTimer (caller : Option τ) (address : Nat) (when_ : TimeStamp) (interval : Int)
      (repeats : Bool)
  | runInLoop (caller : Option τ)
  | returnId (caller : Option τ)
  | cancel (caller : Option τ) (timer : ActiveTimer)
  | queueInLoop
  | swap
  | runFunctor
  | loop (label : TimerQueue.Label)
deriving DecidableEq

def Call.isMade : Call → Bool
  | .made _ => true
  | .outside | .handed _ => false

def Call.isHanded : Call → Bool
  | .handed _ => true
  | .outside | .made _ => false

/-- The default constructor of TimerId. -/
def nullId : ActiveTimer := (0, 0)

/-- A step of handleRead, or of the kernel. -/
def own : TimerQueue.Label → Bool
  | .handleRead _ | .runNext | .endCalling | .resetNext | .rearm | .alarm => true
  | .newTimer _ _ _ _ | .addTimerInLoop _ | .cancelInLoop _ => false

def isHandleRead : TimerQueue.Label → Bool
  | .handleRead _ => true
  | .newTimer _ _ _ _ | .addTimerInLoop _ | .cancelInLoop _ | .runNext | .endCalling | .resetNext
  | .rearm | .alarm => false

section

variable {τ : Type*}

/-- The functors in the order in which they will run. -/
def State.queue (s : State τ) : List Functor := s.functors ++ s.pendingFunctors

def created (τ : Type*) : State τ where
  timers := TimerQueue.create
  pendingFunctors := []
  functors := []
  calls _ := .outside
  returned := []

/-- The loop's own thread calls from a callback or a functor, and goes on when the call has
returned; handleRead does not come while doPendingFunctors is under way. A TimerId comes from
addTimer or is the default one. -/
def Enabled (s : State τ) : Label τ → Prop
  | .newTimer caller address when_ interval repeats =>
      s.calls caller = .outside ∧ (caller = none → s.timers.phase.callable = true) ∧
        s.timers.Enabled (.newTimer address when_ interval repeats)
  | .runInLoop caller => (s.calls caller).isMade = true ∧
      (caller = none → s.timers.phase.callable = true)
  | .returnId caller => (s.calls caller).isHanded = true
  | .cancel caller timer =>
      s.calls caller = .outside ∧ (caller = none → s.timers.phase.callable = true) ∧
        (timer ∈ s.returned ∨ timer = nullId)
  | .queueInLoop => True
  | .swap => s.functors = [] ∧ s.timers.phase = .idle ∧ s.calls none = .outside
  | .runFunctor => s.functors ≠ [] ∧ s.calls none = .outside
  | .loop label => own label = true ∧ s.timers.Enabled label ∧
      (label = .alarm ∨ s.calls none = .outside) ∧
      (isHandleRead label = true → s.functors = [])

instance decidableEnabled (s : State τ) : (label : Label τ) → Decidable (Enabled s label)
  | .newTimer caller address when_ interval repeats =>
      inferInstanceAs (Decidable (s.calls caller = .outside ∧
        (caller = none → s.timers.phase.callable = true) ∧
        s.timers.Enabled (.newTimer address when_ interval repeats)))
  | .runInLoop caller =>
      inferInstanceAs (Decidable ((s.calls caller).isMade = true ∧
        (caller = none → s.timers.phase.callable = true)))
  | .returnId caller => inferInstanceAs (Decidable ((s.calls caller).isHanded = true))
  | .cancel caller timer =>
      inferInstanceAs (Decidable (s.calls caller = .outside ∧
        (caller = none → s.timers.phase.callable = true) ∧
        (timer ∈ s.returned ∨ timer = nullId)))
  | .queueInLoop => inferInstanceAs (Decidable True)
  | .swap =>
      inferInstanceAs (Decidable (s.functors = [] ∧ s.timers.phase = .idle ∧
        s.calls none = .outside))
  | .runFunctor => inferInstanceAs (Decidable (s.functors ≠ [] ∧ s.calls none = .outside))
  | .loop label =>
      inferInstanceAs (Decidable (own label = true ∧ s.timers.Enabled label ∧
        (label = .alarm ∨ s.calls none = .outside) ∧
        (isHandleRead label = true → s.functors = [])))

def State.run (s : State τ) : Functor → Option (State τ)
  | .addTimerInLoop timer => (s.timers.addTimerInLoop timer).map fun q => { s with timers := q }
  | .cancelInLoop timer => (s.timers.cancelInLoop timer).map fun q => { s with timers := q }
  | .other => some s

/-- EventLoop::runInLoop. -/
def State.runInLoop (s : State τ) (caller : Option τ) (f : Functor) : Option (State τ) :=
  match caller with
  | none => s.run f
  | some _ => some { s with pendingFunctors := s.pendingFunctors ++ [f] }

variable [DecidableEq τ]

def State.goto (s : State τ) (caller : Option τ) (call : Call) : State τ :=
  { s with calls := Function.update s.calls caller call }

/-- addTimer is cut where the other threads may come in between: the constructor of the
Timer, runInLoop, and timer->sequence(), which fails on a Timer that has been deleted. -/
def next (s : State τ) : Label τ → Option (State τ)
  | .newTimer caller address when_ interval repeats =>
      some (({ s with timers := s.timers.newTimer address when_ interval repeats }).goto caller
        (.made (address, s.timers.numCreated + 1)))
  | .runInLoop caller =>
      match s.calls caller with
      | .made timer => (s.goto caller (.handed timer)).runInLoop caller (.addTimerInLoop timer)
      | .outside | .handed _ => none
  | .returnId caller =>
      match s.calls caller with
      | .handed timer => (s.timers.deref timer).map fun t =>
          ({ s with returned := s.returned ++ [(timer.1, t.sequence)] }).goto caller .outside
      | .outside | .made _ => none
  | .cancel caller timer => s.runInLoop caller (.cancelInLoop timer)
  | .queueInLoop => some { s with pendingFunctors := s.pendingFunctors ++ [.other] }
  | .swap => some { s with functors := s.pendingFunctors, pendingFunctors := [] }
  | .runFunctor =>
      match s.functors with
      | [] => none
      | f :: rest => ({ s with functors := rest }).run f
  | .loop label => (s.timers.next label).map fun q => { s with timers := q }

def machine (τ : Type*) [DecidableEq τ] : Machine (State τ) (Label τ) where
  enabled := Enabled
  step := next

instance decidableAllowed (s : State τ) (label : Label τ) :
    Decidable ((machine τ).enabled s label) :=
  inferInstanceAs (Decidable (Enabled s label))

/-- The Timer that addTimer reads for its TimerId has not been deleted. -/
def ReadsLive (s : State τ) : Label τ → Prop
  | .returnId caller => ∀ timer, s.calls caller = .handed timer → timer.2 ∉ s.timers.deleted
  | .newTimer _ _ _ _ _ | .runInLoop _ | .cancel _ _ | .queueInLoop | .swap | .runFunctor
  | .loop _ => True

end

/-- The Timer that `g` adds has not been added or cancelled by `f` before. -/
def Behind (f g : Functor) : Prop :=
  ∀ p, g = .addTimerInLoop p → f ≠ .addTimerInLoop p ∧ f ≠ .cancelInLoop p

section

variable {τ : Type*} {q r : TimerQueue} {queue : List Functor} {calls : Option τ → Call}
  {returned : List ActiveTimer} {p : ActiveTimer} {caller : Option τ}

/-- What the threads, the functors to come and the TimerIds handed out have to do with the
timers. -/
structure Books (q : TimerQueue) (queue : List Functor) (calls : Option τ → Call)
    (returned : List ActiveTimer) : Prop where
  timers : q.Invariant
  waiting : ∀ p, p ∈ q.waiting ↔ (∃ c, calls c = .made p) ∨ .addTimerInLoop p ∈ queue
  single : ∀ c d p, calls c = .made p → calls d = .made p → c = d
  fresh : ∀ c p, calls c = .made p →
    .addTimerInLoop p ∉ queue ∧ p ∉ returned ∧ ∀ d, calls d ≠ .handed p
  issued : ∀ p, (∃ c, calls c = .made p ∨ calls c = .handed p) ∨ p ∈ returned → q.Issued p
  cancels : ∀ p, .cancelInLoop p ∈ queue → p ∈ returned ∨ p = nullId
  ordered : queue.Pairwise Behind
  present : ∀ p, calls none = .handed p → p ∈ q.activeTimers

theorem Books.known (books : Books q queue calls returned) (there : p ∈ q.waiting) :
    q.Issued p :=
  books.timers.owned.numbered p
    ((books.timers.owned.live p).mpr (Or.inl (List.mem_append_left _ there)))

/-- A step that leaves the waiting calls alone. -/
theorem Books.follow (books : Books q queue calls returned) (timers : r.Invariant)
    (waiting : r.waiting = q.waiting) (issued : ∀ p, q.Issued p → r.Issued p)
    (present : ∀ p, calls none = .handed p → p ∈ r.activeTimers) :
    Books r queue calls returned where
  timers := timers
  waiting := by
    rw [waiting]
    exact books.waiting
  single := books.single
  fresh := books.fresh
  issued p held := issued p (books.issued p held)
  cancels := books.cancels
  ordered := books.ordered
  present := present

theorem Books.push (books : Books q queue calls returned) (f : Functor)
    (adds : ∀ p, f ≠ .addTimerInLoop p)
    (cancels : ∀ p, f = .cancelInLoop p → p ∈ returned ∨ p = nullId) :
    Books q (queue ++ [f]) calls returned := by
  have same (p : ActiveTimer) :
      .addTimerInLoop p ∈ queue ++ [f] ↔ .addTimerInLoop p ∈ queue := by
    rw [List.mem_append, List.mem_singleton, or_iff_left (adds p).symm]
  constructor
  · exact books.timers
  · intro p
    rw [same]
    exact books.waiting p
  · exact books.single
  · intro c p made
    rw [same]
    exact books.fresh c p made
  · exact books.issued
  · intro p member
    rcases List.mem_append.mp member with old | new
    · exact books.cancels p old
    · exact cancels p (List.mem_singleton.mp new).symm
  · refine List.pairwise_append.mpr ⟨books.ordered, List.pairwise_singleton _ _, ?_⟩
    intro g _ h last p added
    rw [List.mem_singleton.mp last] at added
    exact absurd added (adds p)
  · exact books.present

/-- The functor at the front is none that adds a Timer. -/
theorem Books.pop {f : Functor} (books : Books q (f :: queue) calls returned)
    (adds : ∀ p, f ≠ .addTimerInLoop p) : Books q queue calls returned := by
  have same (p : ActiveTimer) :
      .addTimerInLoop p ∈ f :: queue ↔ .addTimerInLoop p ∈ queue := by
    rw [List.mem_cons, or_iff_right (adds p).symm]
  constructor
  · exact books.timers
  · intro p
    rw [← same]
    exact books.waiting p
  · exact books.single
  · intro c p made
    rw [← same]
    exact books.fresh c p made
  · exact books.issued
  · exact fun p member => books.cancels p (List.mem_cons_of_mem _ member)
  · exact books.ordered.of_cons
  · exact books.present

/-- The functor at the front is addTimerInLoop, and it is run. -/
theorem Books.added (books : Books q (.addTimerInLoop p :: queue) calls returned)
    (outside : calls none = .outside) (timers : r.Invariant)
    (waiting : r.waiting = q.waiting.erase p) (issued : ∀ p, q.Issued p → r.Issued p) :
    Books r queue calls returned := by
  have nodup : q.waiting.Nodup := (List.nodup_append.mp books.timers.owned.nodup).1
  obtain ⟨first, ordered⟩ := List.pairwise_cons.mp books.ordered
  have once : .addTimerInLoop p ∉ queue := fun member => (first _ member p rfl).1 rfl
  constructor
  · exact timers
  · intro x
    rw [waiting, nodup.mem_erase_iff, books.waiting x]
    grind [books.fresh]
  · exact books.single
  · intro c x made
    obtain ⟨unqueued, rest⟩ := books.fresh c x made
    exact ⟨fun member => unqueued (List.mem_cons_of_mem _ member), rest⟩
  · exact fun x held => issued x (books.issued x held)
  · exact fun x member => books.cancels x (List.mem_cons_of_mem _ member)
  · exact ordered
  · intro x handed
    rw [outside] at handed
    cases handed

variable [DecidableEq τ]

theorem exists_update (calls : Option τ → Call) (caller : Option τ) (x y : Call) :
    (∃ c, Function.update calls caller x c = y) ↔ x = y ∨ ∃ c, c ≠ caller ∧ calls c = y := by
  constructor
  · rintro ⟨c, eq⟩
    rw [Function.update_apply] at eq
    split at eq
    · exact Or.inl eq
    · rename_i other
      exact Or.inr ⟨c, other, eq⟩
  · rintro (same | ⟨c, other, eq⟩)
    · exact ⟨caller, (Function.update_self _ _ _).trans same⟩
    · exact ⟨c, (Function.update_of_ne other _ _).trans eq⟩

theorem Books.made (books : Books q queue calls returned) (outside : calls caller = .outside)
    (timers : r.Invariant) (waiting : r.waiting = q.waiting ++ [p])
    (active : r.activeTimers = q.activeTimers) (issued : ∀ p, q.Issued p → r.Issued p)
    (unknown : ¬ q.Issued p) (known : r.Issued p) :
    Books r queue (Function.update calls caller (.made p)) returned := by
  have others (c : Option τ) (x : ActiveTimer) (earlier : calls c = .made x ∨ calls c = .handed x) :
      x ≠ p ∧ c ≠ caller := by
    constructor
    · rintro rfl
      exact unknown (books.issued x (Or.inl ⟨c, earlier⟩))
    · rintro rfl
      rw [outside] at earlier
      rcases earlier with made | handed
      · cases made
      · cases handed
  have unqueued : .addTimerInLoop p ∉ queue := fun member =>
    unknown (books.known ((books.waiting p).mpr (Or.inr member)))
  constructor
  · exact timers
  · intro x
    rw [waiting, List.mem_append, List.mem_singleton, books.waiting x, exists_update]
    grind
  · grind [books.single]
  · grind [books.fresh, books.issued]
  · grind [books.issued]
  · exact books.cancels
  · exact books.ordered
  · rw [active]
    grind [books.present]

/-- Another thread queues addTimerInLoop. -/
theorem Books.handed (books : Books q queue calls returned) (made : calls caller = .made p)
    (other : caller ≠ none) :
    Books q (queue ++ [.addTimerInLoop p]) (Function.update calls caller (.handed p)) returned := by
  obtain ⟨unqueued, unreturned, unhanded⟩ := books.fresh caller p made
  have issued := books.issued p (Or.inl ⟨caller, Or.inl made⟩)
  constructor
  · exact books.timers
  · intro x
    rw [books.waiting x, List.mem_append, List.mem_singleton, exists_update]
    grind
  · grind [books.single]
  · grind [books.fresh, books.single]
  · grind [books.issued]
  · grind [books.cancels]
  · refine List.pairwise_append.mpr ⟨books.ordered, List.pairwise_singleton _ _, ?_⟩
    intro f member g last x added
    rw [List.mem_singleton.mp last, Functor.addTimerInLoop.injEq] at added
    subst added
    refine ⟨fun same => unqueued (same ▸ member), ?_⟩
    rintro rfl
    rcases books.cancels p member with before | rfl
    · exact unreturned before
    · exact absurd issued.1 (lt_irrefl 0)
  · grind [books.present]

/-- The loop's own thread runs addTimerInLoop at once. -/
theorem Books.entered (books : Books q queue calls returned) (made : calls none = .made p)
    (timers : r.Invariant) (waiting : r.waiting = q.waiting.erase p)
    (active : p ∈ r.activeTimers) (issued : ∀ p, q.Issued p → r.Issued p) :
    Books r queue (Function.update calls none (.handed p)) returned := by
  obtain ⟨unqueued, unreturned, unhanded⟩ := books.fresh none p made
  have nodup : q.waiting.Nodup := (List.nodup_append.mp books.timers.owned.nodup).1
  constructor
  · exact timers
  · intro x
    rw [waiting, nodup.mem_erase_iff, books.waiting x, exists_update]
    grind [books.single]
  · grind [books.single]
  · grind [books.fresh, books.single]
  · grind [books.issued]
  · exact books.cancels
  · exact books.ordered
  · grind

theorem Books.returnId (books : Books q queue calls returned) (handed : calls caller = .handed p) :
    Books q queue (Function.update calls caller .outside) (returned ++ [p]) := by
  constructor
  · exact books.timers
  · intro x
    rw [books.waiting x, exists_update]
    grind
  · grind [books.single]
  · grind [books.fresh]
  · grind [books.issued]
  · grind [books.cancels]
  · exact books.ordered
  · grind [books.present]

end

theorem addTimerInLoop_moved {q : TimerQueue} (inv : q.Invariant) {p : ActiveTimer}
    (enabled : q.Enabled (.addTimerInLoop p)) : ∃ r, q.addTimerInLoop p = some r ∧
      r.Invariant ∧ r.waiting = q.waiting.erase p ∧ p ∈ r.activeTimers ∧ r.phase = q.phase ∧
      ∀ x, q.Issued x → r.Issued x := by
  obtain ⟨r, done, moved⟩ := TimerQueue.next_moved q inv (.addTimerInLoop p) enabled
  refine ⟨r, done, moved.invariant inv, ?_⟩
  cases moved with
  | added p t queued callable found =>
      exact ⟨rfl, Finset.mem_insert_self p _, rfl, fun x issued => issued⟩

theorem cancelInLoop_moved {q : TimerQueue} (inv : q.Invariant) {p : ActiveTimer}
    (enabled : q.Enabled (.cancelInLoop p)) : ∃ r, q.cancelInLoop p = some r ∧
      r.Invariant ∧ r.waiting = q.waiting ∧ r.phase = q.phase ∧
      ∀ x, q.Issued x → r.Issued x := by
  obtain ⟨r, done, moved⟩ := TimerQueue.next_moved q inv (.cancelInLoop p) enabled
  obtain ⟨waiting, phase⟩ := moved.cancel_frame
  exact ⟨r, done, moved.invariant inv, waiting, phase, fun x => moved.issued⟩

/-- The loop's own steps leave the queued calls alone, and only handleRead starts a phase. -/
theorem own_moved {q : TimerQueue} (inv : q.Invariant) {label : TimerQueue.Label}
    (enabled : q.Enabled label) (mine : own label = true) : ∃ r, q.next label = some r ∧
      r.Invariant ∧ r.waiting = q.waiting ∧ (∀ x, q.Issued x → r.Issued x) ∧
      (label = .alarm → r.activeTimers = q.activeTimers) ∧
      (isHandleRead label = false → q.phase = .idle → r.phase = .idle) := by
  obtain ⟨r, done, moved⟩ := TimerQueue.next_moved q inv label enabled
  refine ⟨r, done, moved.invariant inv, ?_⟩
  have issued (x : ActiveTimer) : q.Issued x → r.Issued x := moved.issued
  cases moved with
  | made | added | cancelled | noted | ignored => cases mine
  | expired =>
      exact ⟨rfl, issued, fun other => (by cases other), fun other => (by cases other)⟩
  | ran entry rest expired now phase =>
      refine ⟨rfl, issued, fun other => (by cases other), fun _ idle => ?_⟩
      cases phase.symm.trans idle
  | ended expired now phase =>
      refine ⟨rfl, issued, fun other => (by cases other), fun _ idle => ?_⟩
      cases phase.symm.trans idle
  | repeated entry rest now t phase =>
      refine ⟨rfl, issued, fun other => (by cases other), fun _ idle => ?_⟩
      cases phase.symm.trans idle
  | settled entry rest now phase =>
      refine ⟨rfl, issued, fun other => (by cases other), fun _ idle => ?_⟩
      cases phase.symm.trans idle
  | rearmed => exact ⟨rfl, issued, fun other => (by cases other), fun _ _ => rfl⟩
  | alarm => exact ⟨rfl, issued, fun _ => rfl, fun _ idle => idle⟩

def Functor.label : Functor → Option TimerQueue.Label
  | .addTimerInLoop timer => some (.addTimerInLoop timer)
  | .cancelInLoop timer => some (.cancelInLoop timer)
  | .other => none

/-- The timers make the step, if there is one. -/
def Follows (q : TimerQueue) : Option TimerQueue.Label → TimerQueue → Prop
  | none, r => r = q
  | some label, r => q.Enabled label ∧ q.next label = some r

section

variable {τ : Type*}

structure Invariant (s : State τ) : Prop where
  books : Books s.timers s.queue s.calls s.returned
  batch : s.functors ≠ [] → s.timers.phase = .idle

/-- All that a step may do: it queues functors while the timers make a step of their own or
none, or it runs the first functor outside handleRead. -/
structure Stepped (s t : State τ) : Prop where
  invariant : Invariant t
  returned : s.returned ⊆ t.returned
  moved : (s.queue <+: t.queue ∧ ∃ label, Follows s.timers label t.timers) ∨
    ∃ f, s.queue = f :: t.queue ∧ s.timers.phase = .idle ∧ Follows s.timers f.label t.timers

theorem created_invariant : Invariant (created τ) where
  books := by
    constructor
    · exact TimerQueue.create_invariant
    · intro p
      constructor
      · intro member
        cases member
      · rintro (⟨c, made⟩ | member)
        · cases made
        · cases member
    · intro c d p made
      cases made
    · intro c p made
      cases made
    · rintro p (⟨c, made | handed⟩ | member)
      · cases made
      · cases handed
      · cases member
    · intro p member
      cases member
    · exact List.Pairwise.nil
    · intro p handed
      cases handed
  batch some := absurd rfl some

/-- The functor at the front is run. -/
theorem runFunctor_stepped (s : State τ) (inv : Invariant s) (f : Functor) (rest : List Functor)
    (first : s.functors = f :: rest) (outside : s.calls none = .outside) :
    ∃ t, ({ s with functors := rest } : State τ).run f = some t ∧ Stepped s t := by
  have idle : s.timers.phase = .idle := inv.batch (by rw [first]; exact List.cons_ne_nil _ _)
  have callable : s.timers.phase.callable = true := by rw [idle]; rfl
  have queue : s.queue = f :: (rest ++ s.pendingFunctors) := by
    rw [State.queue, first, List.cons_append]
  have books := inv.books
  rw [queue] at books
  have absent (p : ActiveTimer) (handed : s.calls none = .handed p) : False := by
    rw [outside] at handed
    cases handed
  cases f with
  | addTimerInLoop p =>
      have enabled : s.timers.Enabled (.addTimerInLoop p) :=
        ⟨(books.waiting p).mpr (Or.inr List.mem_cons_self), callable⟩
      obtain ⟨r, done, timers, waiting, _, phase, issued⟩ :=
        addTimerInLoop_moved books.timers enabled
      refine ⟨{ s with timers := r, functors := rest }, ?_, ?_⟩
      · rw [State.run, done]
        rfl
      · refine ⟨⟨books.added outside timers waiting issued, fun _ => phase.trans idle⟩,
          List.Subset.refl _, Or.inr ⟨_, queue, idle, enabled, done⟩⟩
  | cancelInLoop p =>
      obtain ⟨r, done, timers, waiting, phase, issued⟩ :=
        cancelInLoop_moved books.timers (p := p) callable
      refine ⟨{ s with timers := r, functors := rest }, ?_, ?_⟩
      · rw [State.run, done]
        rfl
      · have popped := books.pop (fun x other => by cases other)
        refine ⟨⟨popped.follow timers waiting issued (fun x handed => (absent x handed).elim),
          fun _ => phase.trans idle⟩, List.Subset.refl _, Or.inr ⟨_, queue, idle, callable, done⟩⟩
  | other =>
      exact ⟨{ s with functors := rest }, rfl, ⟨books.pop (fun x other => by cases other),
        fun _ => idle⟩, List.Subset.refl _, Or.inr ⟨_, queue, idle, rfl⟩⟩

theorem cancel_stepped (s : State τ) (inv : Invariant s) (caller : Option τ) (p : ActiveTimer)
    (outside : s.calls caller = .outside)
    (callable : caller = none → s.timers.phase.callable = true)
    (id : p ∈ s.returned ∨ p = nullId) :
    ∃ t, s.runInLoop caller (.cancelInLoop p) = some t ∧ Stepped s t := by
  cases caller with
  | none =>
      obtain ⟨r, done, timers, waiting, phase, issued⟩ :=
        cancelInLoop_moved inv.books.timers (p := p) (callable rfl)
      refine ⟨{ s with timers := r }, ?_, ?_⟩
      · rw [State.runInLoop, State.run, done]
        rfl
      · have absent (x : ActiveTimer) (handed : s.calls none = .handed x) :
            x ∈ r.activeTimers := by
          rw [outside] at handed
          cases handed
        exact ⟨⟨inv.books.follow timers waiting issued absent,
          fun some => phase.trans (inv.batch some)⟩, List.Subset.refl _,
          Or.inl ⟨List.prefix_rfl, some (.cancelInLoop p), callable rfl, done⟩⟩
  | some c =>
      refine ⟨_, rfl, ⟨?_, inv.batch⟩, List.Subset.refl _, Or.inl ⟨?_, none, rfl⟩⟩
      · have books := inv.books.push (.cancelInLoop p) (fun x other => by cases other)
          (fun x same => by cases same; exact id)
        rw [State.queue, List.append_assoc] at books
        exact books
      · rw [State.queue, State.queue, ← List.append_assoc]
        exact List.prefix_append _ _

/-- A Timer that a TimerId is to be made for is alive unless it has been deleted. -/
theorem Books.deref_iff {q : TimerQueue} {queue : List Functor} {calls : Option τ → Call}
    {returned : List ActiveTimer} (books : Books q queue calls returned) {caller : Option τ}
    {p : ActiveTimer} (handed : calls caller = .handed p) :
    (∃ t, q.deref p = some t) ↔ p.2 ∉ q.deleted := by
  have issued := books.issued p (Or.inl ⟨caller, Or.inr handed⟩)
  rw [books.timers.owned.gone p.2]
  constructor
  · rintro ⟨t, found⟩ ⟨_, dead⟩
    exact dead p.1 (TimerQueue.Live.of_deref found)
  · intro alive
    by_contra dead
    apply alive
    refine ⟨⟨issued.1, issued.bound⟩, fun address live => dead ?_⟩
    have same := issued.unique books.timers live rfl
    exact (same ▸ live).deref

/-- addTimer on the loop's own thread finds its Timer in the sets. -/
theorem Invariant.readsLive {s : State τ} (inv : Invariant s) : ReadsLive s (.returnId none) := by
  intro p handed
  have live : s.timers.Live p :=
    (inv.books.timers.owned.live p).mpr (Or.inr (inv.books.present p handed))
  exact (inv.books.deref_iff handed).mp live.deref

/-- A step, or none. -/
theorem Follows.run {q r : TimerQueue} {label : Option TimerQueue.Label}
    (follows : Follows q label r) : ∃ labels, TimerQueue.machine.Run q labels r := by
  cases label with
  | none =>
      cases follows
      exact ⟨[], .nil⟩
  | some label => exact ⟨[label], .single follows.1 follows.2⟩

theorem Stepped.follows {s t : State τ} (stepped : Stepped s t) :
    ∃ label, Follows s.timers label t.timers := by
  rcases stepped.moved with ⟨_, follows⟩ | ⟨f, _, _, follows⟩
  · exact follows
  · exact ⟨f.label, follows⟩

/-- The timer has been returned to its user, and a cancel of it is queued or has been
carried out. -/
def Settling (p : ActiveTimer) (s : State τ) : Prop :=
  p ∈ s.returned ∧ (.cancelInLoop p ∈ s.queue ∨ s.timers.Dead p)

theorem Follows.dead {q r : TimerQueue} {label : Option TimerQueue.Label} {p : ActiveTimer}
    (follows : Follows q label r) (inv : q.Invariant) (dead : q.Dead p) : r.Dead p := by
  cases label with
  | none =>
      cases follows
      exact dead
  | some label =>
      obtain ⟨t, done, moved⟩ := TimerQueue.next_moved q inv label follows.1
      cases follows.2.symm.trans done
      exact moved.dead inv dead

/-- Functors run in the order in which they were queued, so a queued cancel does not meet a
timer that is still to be added. -/
theorem Stepped.settling {s t : State τ} {p : ActiveTimer} (inv : Invariant s)
    (stepped : Stepped s t) (settling : Settling p s) : Settling p t := by
  obtain ⟨returned, queued | dead⟩ := settling
  · refine ⟨stepped.returned returned, ?_⟩
    rcases stepped.moved with ⟨more, _⟩ | ⟨f, first, idle, follows⟩
    · exact Or.inl (more.subset queued)
    · rw [first] at queued
      rcases List.mem_cons.mp queued with rfl | later
      · right
        have books := inv.books
        rw [first] at books
        have waiting : p ∉ s.timers.waiting := by
          intro member
          rcases (books.waiting p).mp member with ⟨c, made⟩ | behind
          · exact (books.fresh c p made).2.1 returned
          · rcases List.mem_cons.mp behind with other | behind
            · cases other
            · exact ((List.pairwise_cons.mp books.ordered).1 _ behind p rfl).2 rfl
        have remaining : p ∉ s.timers.phase.remaining := by
          rw [idle]
          exact List.not_mem_nil
        obtain ⟨r, done, moved⟩ :=
          TimerQueue.next_moved s.timers books.timers (.cancelInLoop p) follows.1
        cases follows.2.symm.trans done
        exact moved.cancel_dead books.timers (books.issued p (Or.inr returned)) waiting remaining
      · exact Or.inl later
  · obtain ⟨_, follows⟩ := stepped.follows
    exact ⟨stepped.returned returned, Or.inr (follows.dead inv.books.timers dead)⟩

variable [DecidableEq τ]

/-- runInLoop with addTimerInLoop. -/
theorem runInLoop_stepped (s : State τ) (inv : Invariant s) (caller : Option τ) (p : ActiveTimer)
    (made : s.calls caller = .made p)
    (callable : caller = none → s.timers.phase.callable = true) :
    ∃ t, (s.goto caller (.handed p)).runInLoop caller (.addTimerInLoop p) = some t ∧
      Stepped s t := by
  cases caller with
  | none =>
      have enabled : s.timers.Enabled (.addTimerInLoop p) :=
        ⟨(inv.books.waiting p).mpr (Or.inl ⟨none, made⟩), callable rfl⟩
      obtain ⟨r, done, timers, waiting, active, phase, issued⟩ :=
        addTimerInLoop_moved inv.books.timers enabled
      refine ⟨{ s.goto none (.handed p) with timers := r }, ?_, ?_⟩
      · rw [State.runInLoop, State.run, State.goto, done]
        rfl
      · exact ⟨⟨inv.books.entered made timers waiting active issued,
          fun some => phase.trans (inv.batch some)⟩, List.Subset.refl _,
          Or.inl ⟨List.prefix_rfl, some (.addTimerInLoop p), enabled, done⟩⟩
  | some c =>
      refine ⟨_, rfl, ⟨?_, inv.batch⟩, List.Subset.refl _, Or.inl ⟨?_, none, rfl⟩⟩
      · have books := inv.books.handed made (Option.some_ne_none c)
        rw [State.queue, List.append_assoc] at books
        exact books
      · rw [State.queue, State.queue, State.goto, ← List.append_assoc]
        exact List.prefix_append _ _

theorem newTimer_stepped (s : State τ) (inv : Invariant s) (caller : Option τ) (address : Nat)
    (when_ : TimeStamp) (interval : Int) (repeats : Bool) (outside : s.calls caller = .outside)
    (enabled : s.timers.Enabled (.newTimer address when_ interval repeats)) :
    Stepped s (({ s with
      timers := s.timers.newTimer address when_ interval repeats } : State τ).goto caller
        (.made (address, s.timers.numCreated + 1))) := by
  obtain ⟨free, bounded, nonneg⟩ := enabled
  have moved : TimerQueue.Moved s.timers (.newTimer address when_ interval repeats)
      (s.timers.newTimer address when_ interval repeats) :=
    .made address when_ interval repeats free bounded nonneg
  have unknown : ¬ s.timers.Issued (address, s.timers.numCreated + 1) := fun issued =>
    absurd issued.bound (Nat.not_succ_le_self _)
  have known : (s.timers.newTimer address when_ interval repeats).Issued
      (address, s.timers.numCreated + 1) :=
    ⟨Nat.succ_pos _, List.getElem?_concat_length⟩
  exact ⟨⟨inv.books.made outside (moved.invariant inv.books.timers) rfl rfl
    (fun x => moved.issued) unknown known, inv.batch⟩, List.Subset.refl _,
    Or.inl ⟨List.prefix_rfl, some (.newTimer address when_ interval repeats),
      ⟨free, bounded, nonneg⟩, rfl⟩⟩

theorem loop_stepped (s : State τ) (inv : Invariant s) (label : TimerQueue.Label)
    (mine : own label = true) (enabled : s.timers.Enabled label)
    (outside : label = .alarm ∨ s.calls none = .outside)
    (batch : isHandleRead label = true → s.functors = []) :
    ∃ t, next s (.loop label) = some t ∧ Stepped s t := by
  obtain ⟨r, done, timers, waiting, issued, alarm, idle⟩ :=
    own_moved inv.books.timers enabled mine
  refine ⟨{ s with timers := r }, ?_, ⟨?_, ?_⟩, List.Subset.refl _,
    Or.inl ⟨List.prefix_rfl, some label, enabled, done⟩⟩
  · rw [next, done]
    rfl
  · refine inv.books.follow timers waiting issued ?_
    intro x handed
    rcases outside with rfl | outside
    · rw [alarm rfl]
      exact inv.books.present x handed
    · rw [outside] at handed
      cases handed
  · intro some
    refine idle ?_ (inv.batch some)
    rw [Bool.eq_false_iff]
    exact fun starts => some (batch starts)

theorem returnId_stepped (s : State τ) (inv : Invariant s) (caller : Option τ) (p : ActiveTimer)
    (handed : s.calls caller = .handed p) :
    (p.2 ∈ s.timers.deleted → next s (.returnId caller) = none) ∧
    (p.2 ∉ s.timers.deleted → ∃ t, next s (.returnId caller) = some t ∧ Stepped s t) := by
  constructor
  · intro deleted
    have dangling : s.timers.deref p = none := by
      rw [Option.eq_none_iff_forall_ne_some]
      intro t found
      exact (inv.books.deref_iff handed).mp ⟨t, found⟩ deleted
    rw [next, handed]
    simp only [dangling, Option.map_none]
  · intro alive
    obtain ⟨t, found⟩ := (inv.books.deref_iff handed).mpr alive
    have same : (p.1, t.sequence) = p := by
      rw [((TimerQueue.deref_eq_some s.timers p t).mp found).2]
    refine ⟨({ s with returned := s.returned ++ [p] } : State τ).goto caller .outside, ?_,
      ⟨inv.books.returnId handed, inv.batch⟩, List.subset_append_left _ _,
      Or.inl ⟨List.prefix_rfl, none, rfl⟩⟩
    rw [next, handed]
    simp only [found, Option.map_some, same]

theorem next_spec (s : State τ) (inv : Invariant s) (label : Label τ) (enabled : Enabled s label) :
    (∃ t, next s label = some t ∧ Stepped s t ∧ ReadsLive s label) ∨
      next s label = none ∧ ¬ ReadsLive s label := by
  cases label with
  | newTimer caller address when_ interval repeats =>
      obtain ⟨outside, _, fits⟩ := enabled
      exact Or.inl ⟨_, rfl,
        newTimer_stepped s inv caller address when_ interval repeats outside fits, trivial⟩
  | runInLoop caller =>
      obtain ⟨made, callable⟩ := enabled
      cases call : s.calls caller with
      | outside | handed => rw [call] at made; cases made
      | made p =>
          obtain ⟨t, done, stepped⟩ := runInLoop_stepped s inv caller p call callable
          refine Or.inl ⟨t, ?_, stepped, trivial⟩
          rw [next, call]
          exact done
  | returnId caller =>
      have isHanded : (s.calls caller).isHanded = true := enabled
      cases call : s.calls caller with
      | outside | made => rw [call] at isHanded; cases isHanded
      | handed p =>
          obtain ⟨fails, reads⟩ := returnId_stepped s inv caller p call
          by_cases deleted : p.2 ∈ s.timers.deleted
          · exact Or.inr ⟨fails deleted, fun live => live p call deleted⟩
          · obtain ⟨t, done, stepped⟩ := reads deleted
            refine Or.inl ⟨t, done, stepped, ?_⟩
            intro q other
            cases call.symm.trans other
            exact deleted
  | cancel caller p =>
      obtain ⟨outside, callable, id⟩ := enabled
      obtain ⟨t, done, stepped⟩ := cancel_stepped s inv caller p outside callable id
      exact Or.inl ⟨t, done, stepped, trivial⟩
  | queueInLoop =>
      have books := inv.books.push .other (fun x other => by cases other)
        (fun x other => by cases other)
      rw [State.queue, List.append_assoc] at books
      refine Or.inl ⟨_, rfl, ⟨⟨books, inv.batch⟩, List.Subset.refl _, Or.inl ⟨?_, none, rfl⟩⟩,
        trivial⟩
      rw [State.queue, State.queue, ← List.append_assoc]
      exact List.prefix_append _ _
  | swap =>
      obtain ⟨empty, idle, outside⟩ := enabled
      have queue : s.pendingFunctors ++ [] = s.queue := by
        rw [State.queue, empty, List.append_nil, List.nil_append]
      refine Or.inl ⟨_, rfl, ⟨⟨?_, fun _ => idle⟩, List.Subset.refl _, Or.inl ⟨?_, none, rfl⟩⟩,
        trivial⟩
      · rw [State.queue]
        dsimp only
        rw [queue]
        exact inv.books
      · show s.queue <+: s.pendingFunctors ++ []
        rw [queue]
  | runFunctor =>
      obtain ⟨some, outside⟩ := enabled
      cases first : s.functors with
      | nil => exact absurd first some
      | cons f rest =>
          obtain ⟨t, done, stepped⟩ := runFunctor_stepped s inv f rest first outside
          refine Or.inl ⟨t, ?_, stepped, trivial⟩
          rw [next, first]
          exact done
  | loop label =>
      obtain ⟨mine, fits, outside, batch⟩ := enabled
      obtain ⟨t, done, stepped⟩ := loop_stepped s inv label mine fits outside batch
      exact Or.inl ⟨t, done, stepped, trivial⟩

theorem next_stepped {s t : State τ} {label : Label τ} (inv : Invariant s)
    (enabled : Enabled s label) (done : next s label = some t) : Stepped s t := by
  rcases next_spec s inv label enabled with ⟨u, again, stepped, _⟩ | ⟨fails, _⟩
  · cases done.symm.trans again
    exact stepped
  · cases done.symm.trans fails

/-- The threads see nothing but steps of the timers. -/
theorem machine_simulates :
    (machine τ).Simulates TimerQueue.machine Invariant (fun s => s.timers) := by
  intro s label t inv enabled done
  have stepped := next_stepped inv enabled done
  obtain ⟨_, follows⟩ := stepped.follows
  exact ⟨stepped.invariant, follows.run⟩

theorem run_threads {labels : List (Label τ)} {s : State τ}
    (run : (machine τ).Run (created τ) labels s) : Invariant s :=
  run.invariant machine_simulates.preserves created_invariant

/-- Whatever threads add and cancel timers, the timers go through a run of their own, and no
step of the loop or of another thread fails but one: addTimer on another thread reads its
Timer for the TimerId, and the loop has deleted it by then. -/
theorem addTimer_fails_iff (labels : List (Label τ)) (s : State τ)
    (run : (machine τ).Run (created τ) labels s) :
    (∃ steps, TimerQueue.machine.Run TimerQueue.create steps s.timers) ∧
    ReadsLive s (.returnId none) ∧
    ∀ label, Enabled s label → ((∃ t, next s label = some t) ↔ ReadsLive s label) := by
  have inv := run_threads run
  refine ⟨run.refines machine_simulates created_invariant, inv.readsLive, ?_⟩
  intro label enabled
  rcases next_spec s inv label enabled with ⟨t, done, _, live⟩ | ⟨fails, dead⟩
  · exact ⟨fun _ => live, fun _ => ⟨t, done⟩⟩
  · refine ⟨?_, fun live => absurd live dead⟩
    rintro ⟨t, done⟩
    cases fails.symm.trans done

/-- Another thread hands its Timer over, and the loop adds it, runs it and deletes it before
the thread goes on. -/
theorem addTimer_fails_deleted : ∃ s, (machine Unit).Run (created Unit)
      [.newTimer (some ()) 100 5 0 false, .runInLoop (some ()), .swap, .runFunctor, .loop .alarm,
        .loop (.handleRead 7), .loop .runNext, .loop .endCalling, .loop .resetNext] s ∧
    Enabled s (.returnId (some ())) ∧ ¬ ∃ t, next s (.returnId (some ())) = some t := by
  obtain ⟨s, run, seen⟩ := Machine.exists_run_of_play (machine Unit) (created Unit)
    [.newTimer (some ()) 100 5 0 false, .runInLoop (some ()), .swap, .runFunctor, .loop .alarm,
      .loop (.handleRead 7), .loop .runNext, .loop .endCalling, .loop .resetNext]
    (fun s => (s.calls (some ()), s.timers.deleted)) (.handed (100, 1), [1]) (by decide +kernel)
  simp only [Prod.mk.injEq] at seen
  obtain ⟨handed, deleted⟩ := seen
  have enabled : Enabled s (.returnId (some ())) := by
    show (s.calls (some ())).isHanded = true
    rw [handed]
    rfl
  refine ⟨s, run, enabled, ?_⟩
  rw [(addTimer_fails_iff _ s run).2.2 _ enabled]
  intro live
  have alive := live (100, 1) handed
  rw [deleted] at alive
  exact alive List.mem_cons_self

theorem run_settling {labels : List (Label τ)} {s t : State τ} {p : ActiveTimer}
    (inv : Invariant s) (settling : Settling p s) (run : (machine τ).Run s labels t) :
    Invariant t ∧ Settling p t := by
  have keeps : (machine τ).Preserves fun s => Invariant s ∧ Settling p s := by
    rintro u label v ⟨known, before⟩ enabled done
    have stepped := next_stepped known enabled done
    exact ⟨stepped.invariant, stepped.settling known before⟩
  have both := run.invariant keeps ⟨inv, settling⟩
  exact both

/-- A cancel by another thread is final: from when its functor has run, the callback of the
timer is not started, whatever the threads do. -/
theorem cancel_other_thread_final (before between after : List (Label τ)) (s t u v : State τ)
    (caller : τ) (p : ActiveTimer) (run : (machine τ).Run (created τ) before s)
    (id : p ∈ s.returned) (enabled : Enabled s (.cancel (some caller) p))
    (cancelled : next s (.cancel (some caller) p) = some t)
    (later : (machine τ).Run t between u) (carriedOut : .cancelInLoop p ∉ u.queue)
    (onward : (machine τ).Run u after v) :
    ∀ started ∈ v.timers.ran.drop u.timers.ran.length, started.1 ≠ p.2 := by
  have inv := run_threads run
  have stepped := next_stepped inv enabled cancelled
  have queued : .cancelInLoop p ∈ t.queue := by
    cases cancelled
    exact List.mem_append_right _ (List.mem_append_right _ List.mem_cons_self)
  obtain ⟨known, _, still | dead⟩ :=
    run_settling stepped.invariant ⟨stepped.returned id, Or.inl queued⟩ later
  · exact absurd still carriedOut
  · obtain ⟨steps, timers⟩ := onward.refines machine_simulates known
    exact dead.neverStarted known.books.timers steps v.timers timers

/-- A repeating timer is cancelled by the thread that has added it, while the loop is running
its callback: the functor comes after handleRead. -/
theorem cancel_other_thread_repeating : ∃ s t u, (machine Unit).Run (created Unit)
      [.newTimer (some ()) 100 5 10 true, .runInLoop (some ()), .returnId (some ()), .swap,
        .runFunctor, .loop .alarm, .loop (.handleRead 7), .loop .runNext] s ∧
    next s (.cancel (some ()) (100, 1)) = some t ∧
    (machine Unit).Run t [.loop .endCalling, .loop .resetNext, .loop .rearm, .swap, .runFunctor] u ∧
    ∀ more v, (machine Unit).Run u more v →
      ∀ started ∈ v.timers.ran.drop u.timers.ran.length, started.1 ≠ 1 := by
  obtain ⟨s, run, seen⟩ := Machine.exists_run_of_play (machine Unit) (created Unit)
    [.newTimer (some ()) 100 5 10 true, .runInLoop (some ()), .returnId (some ()), .swap,
      .runFunctor, .loop .alarm, .loop (.handleRead 7), .loop .runNext]
    (fun s => (s.calls (some ()), s.returned,
      ((machine Unit).play s [.cancel (some ()) (100, 1), .loop .endCalling, .loop .resetNext,
        .loop .rearm, .swap, .runFunctor]).map State.queue))
    (.outside, [(100, 1)], some []) (by decide +kernel)
  simp only [Prod.mk.injEq] at seen
  obtain ⟨outside, returned, played⟩ := seen
  obtain ⟨u, whole, queue⟩ := Machine.exists_run_of_play (machine Unit) s _ State.queue [] played
  obtain ⟨t, enabled, cancelled, later⟩ := whole.uncons
  refine ⟨s, t, u, run, cancelled, later, ?_⟩
  intro more v onward
  exact cancel_other_thread_final _ _ more s t u v () (100, 1) run
    (by rw [returned]; exact List.mem_cons_self) enabled cancelled later
    (by rw [queue]; exact List.not_mem_nil) onward

end

end Tundra.TimerThreads
