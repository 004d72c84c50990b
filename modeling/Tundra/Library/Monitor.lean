import Mathlib.Logic.Function.Basic
import Tundra.Library.Machine

set_option autoImplicit false

/- Monitors: data behind one mutex, operations that wait on a condition variable until
the data are ready for them, and notify_all on condition variables when they are done.
Any number of threads, in any interleaving; a sleeper may also wake for no reason. -/
namespace Library

/-- `body` is the critical section behind the wait and gives the operation's result, or
`none` when one of its assertions fails. -/
structure Monitor (δ ω κ ρ : Type*) where
  waitsOn : ω → Option κ
  ready : δ → ω → Bool
  body : δ → ω → Option (δ × ρ)
  notifies : ω → κ → Bool

namespace Monitor

/-- Where a thread is: `testing` is ahead of the test of the wait's predicate, `refused`
and `passed` behind it. Only a `sleeping` thread has not been notified. -/
inductive Place (ω ρ : Type*)
  | idle
  | entering (op : ω)
  | testing (op : ω)
  | refused (op : ω)
  | sleeping (op : ω)
  | woken (op : ω)
  | passed (op : ω)
  | leaving (result : ρ)
deriving DecidableEq

/-- `log` lists the critical sections executed so far with their results. -/
structure State (τ δ ω ρ : Type*) where
  data : δ
  owner : Option τ
  place : τ → Place ω ρ
  log : List (ω × ρ)

/-- Each label names the thread and what it is doing. -/
inductive Label (τ ω ρ : Type*)
  | call (thread : τ) (op : ω)
  | acquire (thread : τ) (op : ω)
  | test (thread : τ) (op : ω)
  | sleep (thread : τ) (op : ω)
  | wake (thread : τ) (op : ω)
  | act (thread : τ) (op : ω)
  | release (thread : τ) (result : ρ)
deriving DecidableEq

variable {τ δ ω κ ρ : Type*}

/-- The thread holds the mutex. -/
def Place.Locks : Place ω ρ → Prop
  | testing _ | refused _ | passed _ | leaving _ => True
  | _ => False

variable (M : Monitor δ ω κ ρ)

/-- notify_all on the conditions that `done` notifies, as one thread sees it. -/
def notified (done : ω) : Place ω ρ → Place ω ρ
  | .sleeping op =>
      if (M.waitsOn op).any (M.notifies done) then .woken op else .sleeping op
  | place => place

def start (τ : Type*) (ω ρ : Type*) (data : δ) : State τ δ ω ρ where
  data := data
  owner := none
  place _ := .idle
  log := []

variable [DecidableEq τ]

/-- One thread goes on, leaving the mutex to `owner`. -/
def State.goto (s : State τ δ ω ρ) (thread : τ) (place : Place ω ρ) (owner : Option τ) :
    State τ δ ω ρ :=
  { s with place := Function.update s.place thread place, owner := owner }

def Enabled (s : State τ δ ω ρ) : Label τ ω ρ → Prop
  | .call t _ => s.place t = .idle
  | .acquire t op => s.owner = none ∧ (s.place t = .entering op ∨ s.place t = .woken op)
  | .test t op => s.place t = .testing op
  | .sleep t op => s.place t = .refused op
  | .wake t op => s.place t = .sleeping op
  | .act t op => s.place t = .passed op
  | .release t result => s.place t = .leaving result

instance [DecidableEq ω] [DecidableEq ρ] (s : State τ δ ω ρ) :
    (label : Label τ ω ρ) → Decidable (Enabled s label)
  | .call _ _ | .test _ _ | .sleep _ _ | .wake _ _ | .act _ _ | .release _ _ =>
      inferInstanceAs (Decidable (_ = _))
  | .acquire t op =>
      inferInstanceAs
        (Decidable (s.owner = none ∧ (s.place t = .entering op ∨ s.place t = .woken op)))

/-- The body of an operation together with its notify_all. -/
def State.act (s : State τ δ ω ρ) (thread : τ) (op : ω) : Option (State τ δ ω ρ) :=
  (M.body s.data op).map fun (data, result) =>
    { s with
      data := data
      place := Function.update (M.notified op ∘ s.place) thread (.leaving result)
      log := s.log ++ [(op, result)] }

def next (s : State τ δ ω ρ) : Label τ ω ρ → Option (State τ δ ω ρ)
  | .call t op => some (s.goto t (.entering op) s.owner)
  | .acquire t op => some (s.goto t (.testing op) (some t))
  | .test t op => some (s.goto t (if M.ready s.data op then .passed op else .refused op) s.owner)
  -- The wait gives the mutex back and sleeps in one step.
  | .sleep t op => some (s.goto t (.sleeping op) none)
  | .wake t op => some (s.goto t (.woken op) s.owner)
  | .act t op => s.act M t op
  | .release t _ => some (s.goto t .idle none)

def machine : Machine (State τ δ ω ρ) (Label τ ω ρ) where
  enabled := Enabled
  step := M.next

instance [DecidableEq ω] [DecidableEq ρ] (s : State τ δ ω ρ) (label : Label τ ω ρ) :
    Decidable (M.machine.enabled s label) :=
  inferInstanceAs (Decidable (Enabled s label))

/-- What the place of a thread says about the data. -/
def Fits (data : δ) : Place ω ρ → Prop
  | .refused op | .sleeping op => M.ready data op = false
  | .passed op => M.ready data op = true
  | _ => True

/-- Only the owner of the mutex is inside, and every place fits the data. -/
structure Sound (s : State τ δ ω ρ) : Prop where
  owned : ∀ t, (s.place t).Locks → s.owner = some t
  fits : ∀ t, M.Fits s.data (s.place t)

/-- Whoever makes the data ready for an operation notifies its condition. -/
def Covers : Prop :=
  ∀ data done data' result op, M.body data done = some (data', result) →
    M.ready data op = false → M.ready data' op = true → (M.waitsOn op).any (M.notifies done)

/-- A property of the data and the log that every critical section keeps, when it is
entered as its wait promises. -/
def Keeps (inv : δ → List (ω × ρ) → Prop) : Prop :=
  ∀ data log op data' result, inv data log → M.ready data op = true →
    M.body data op = some (data', result) → inv data' (log ++ [(op, result)])

variable {M} {s s' : State τ δ ω ρ} {inv : δ → List (ω × ρ) → Prop}

@[simp]
theorem goto_place_self (t : τ) (place : Place ω ρ) (owner : Option τ) :
    (s.goto t place owner).place t = place := Function.update_self ..

theorem goto_place_of_ne {t u : τ} (other : u ≠ t) (place : Place ω ρ) (owner : Option τ) :
    (s.goto t place owner).place u = s.place u := Function.update_of_ne other ..

omit [DecidableEq τ] in
theorem start_sound (data : δ) : M.Sound (start τ ω ρ data) where
  owned _ inside := inside.elim
  fits _ := trivial

/-- A step that moves one thread and leaves the data alone. -/
theorem Sound.goto (sound : M.Sound s) (t : τ) (place : Place ω ρ) (owner : Option τ)
    (own : place.Locks → owner = some t)
    (others : ∀ u, u ≠ t → (s.place u).Locks → owner = some u)
    (fit : M.Fits s.data place) : M.Sound (s.goto t place owner) := by
  constructor
  · intro u inside
    by_cases same : u = t
    · subst same
      rw [goto_place_self] at inside
      exact own inside
    · rw [goto_place_of_ne same] at inside
      exact others u same inside
  · intro u
    by_cases same : u = t
    · subst same
      rw [goto_place_self]
      exact fit
    · rw [goto_place_of_ne same]
      exact sound.fits u

omit [DecidableEq τ] in
/-- Nobody else is inside while `t` is. -/
theorem Sound.alone (sound : M.Sound s) {t u : τ} (inside : (s.place t).Locks) (other : u ≠ t) :
    ¬ (s.place u).Locks := by
  intro also
  have both := (sound.owned u also).symm.trans (sound.owned t inside)
  exact other (Option.some.inj both)

/-- A thread outside the monitor after another one's critical section and notify_all. -/
theorem Fits.notified {data data' : δ} {done : ω} {result : ρ} {place : Place ω ρ}
    (covers : M.Covers) (fits : M.Fits data place) (outside : ¬ place.Locks)
    (ran : M.body data done = some (data', result)) : M.Fits data' (M.notified done place) := by
  cases place with
  | sleeping op =>
      unfold Monitor.notified
      dsimp only
      split
      · exact trivial
      · rename_i unheard
        by_contra awake
        have became : M.ready data' op = true := by simpa [Fits] using awake
        exact unheard (covers _ _ _ _ _ ran fits became)
  | refused op => exact (outside trivial).elim
  | passed op => exact (outside trivial).elim
  | idle | entering | testing | woken | leaving => trivial

theorem not_locks_notified {done : ω} {place : Place ω ρ} (outside : ¬ place.Locks) :
    ¬ (M.notified done place).Locks := by
  cases place with
  | sleeping op =>
      unfold notified
      dsimp only
      split <;> exact id
  | idle | entering | testing | woken | leaving | refused | passed => exact outside

theorem Sound.act (covers : M.Covers) (sound : M.Sound s) {t : τ} {op : ω}
    (here : s.place t = .passed op) (moved : s.act M t op = some s') : M.Sound s' := by
  have inside : (s.place t).Locks := by rw [here]; trivial
  unfold State.act at moved
  rw [Option.map_eq_some_iff] at moved
  obtain ⟨⟨data, result⟩, ran, rfl⟩ := moved
  have outside : ∀ u, u ≠ t → ¬ (s.place u).Locks := fun u other => sound.alone inside other
  constructor
  · intro u locks
    by_cases same : u = t
    · rw [same]
      exact sound.owned t inside
    · dsimp only at locks
      rw [Function.update_of_ne same] at locks
      exact absurd locks (not_locks_notified (outside u same))
  · intro u
    dsimp only
    by_cases same : u = t
    · rw [same, Function.update_self]
      trivial
    · rw [Function.update_of_ne same]
      exact (sound.fits u).notified covers (outside u same) ran

/-- A move of a thread that stays outside, or stays inside, as it was. -/
theorem Sound.goto_owner (sound : M.Sound s) (t : τ) {place : Place ω ρ}
    (same : place.Locks → (s.place t).Locks) (fit : M.Fits s.data place) :
    M.Sound (s.goto t place s.owner) :=
  sound.goto t place s.owner (fun inside => sound.owned t (same inside))
    (fun u _ inside => sound.owned u inside) fit

/-- A thread that is inside leaves the mutex. -/
theorem Sound.goto_none (sound : M.Sound s) (t : τ) {place : Place ω ρ}
    (inside : (s.place t).Locks) (outside : ¬ place.Locks) (fit : M.Fits s.data place) :
    M.Sound (s.goto t place none) :=
  sound.goto t place none (fun locks => absurd locks outside)
    (fun _ other locks => absurd locks (sound.alone inside other)) fit

theorem next_sound (covers : M.Covers) (sound : M.Sound s) {label : Label τ ω ρ}
    (allowed : Enabled s label) (moved : M.next s label = some s') : M.Sound s' := by
  cases label with
  | call t op =>
      obtain rfl := Option.some.inj moved
      exact sound.goto_owner t False.elim trivial
  | acquire t op =>
      obtain rfl := Option.some.inj moved
      refine sound.goto t _ _ (fun _ => rfl) (fun u _ inside => ?_) trivial
      have taken := allowed.1.symm.trans (sound.owned u inside)
      cases taken
  | test t op =>
      obtain rfl := Option.some.inj moved
      have here : s.place t = .testing op := allowed
      refine sound.goto_owner t (fun _ => by rw [here]; trivial) ?_
      split
      · rename_i ready
        exact ready
      · rename_i busy
        exact Bool.eq_false_iff.mpr busy
  | sleep t op =>
      obtain rfl := Option.some.inj moved
      have here : s.place t = .refused op := allowed
      have busy := sound.fits t
      rw [here] at busy
      exact sound.goto_none t (by rw [here]; trivial) id busy
  | wake t op =>
      obtain rfl := Option.some.inj moved
      exact sound.goto_owner t False.elim trivial
  | act t op => exact sound.act covers allowed moved
  | release t result =>
      obtain rfl := Option.some.inj moved
      have here : s.place t = .leaving result := allowed
      exact sound.goto_none t (by rw [here]; trivial) id trivial

/-- Data and log change only in a critical section, entered when the data are ready. -/
theorem next_kept (keeps : M.Keeps inv) (sound : M.Sound s) {label : Label τ ω ρ}
    (allowed : Enabled s label) (moved : M.next s label = some s') (held : inv s.data s.log) :
    inv s'.data s'.log := by
  cases label with
  | act t op =>
      have here : s.place t = .passed op := allowed
      have ready := sound.fits t
      rw [here] at ready
      unfold next State.act at moved
      rw [Option.map_eq_some_iff] at moved
      obtain ⟨⟨data, result⟩, ran, rfl⟩ := moved
      exact keeps s.data s.log op data result held ready ran
  | call | acquire | test | sleep | wake | release =>
      obtain rfl := Option.some.inj moved
      exact held

/-- Every run keeps the mutex, the places and what the critical sections keep. -/
theorem run_invariant (covers : M.Covers) (keeps : M.Keeps inv) {data : δ} (first : inv data [])
    {labels : List (Label τ ω ρ)} (run : M.machine.Run (start τ ω ρ data) labels s) :
    M.Sound s ∧ inv s.data s.log := by
  have preserved : M.machine.Preserves
      (fun s : State τ δ ω ρ => M.Sound s ∧ inv s.data s.log) := by
    intro s label t both allowed moved
    exact ⟨next_sound covers both.1 allowed moved, next_kept keeps both.1 allowed moved both.2⟩
  have begun : M.Sound (start τ ω ρ data) ∧ inv data [] := ⟨start_sound data, first⟩
  have reached := Machine.Run.invariant preserved begun run
  exact reached

omit [DecidableEq τ] in
/-- No lost wakeup: a thread that sleeps on, un-notified, does so with the data not ready. -/
theorem Sound.asleep (sound : M.Sound s) {t : τ} {op : ω} (sleeps : s.place t = .sleeping op) :
    M.ready s.data op = false := by
  have fits := sound.fits t
  rw [sleeps] at fits
  exact fits

/-- Where a ready critical section cannot fail, no step of a thread does. -/
theorem next_isSome (sound : M.Sound s) {label : Label τ ω ρ} (allowed : Enabled s label)
    (completes : ∀ op, M.ready s.data op = true → (M.body s.data op).isSome) :
    (M.next s label).isSome := by
  cases label with
  | act t op =>
      have here : s.place t = .passed op := allowed
      have ready := sound.fits t
      rw [here] at ready
      rw [next, State.act, Option.isSome_map]
      exact completes op ready
  | call | acquire | test | sleep | wake | release => rfl

end Monitor
end Library
