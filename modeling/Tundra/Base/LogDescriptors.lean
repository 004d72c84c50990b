import Mathlib.Logic.Function.Basic
import Tundra.Library.Machine

set_option autoImplicit false

/- The descriptors of util/mmapManager as base/LogFile rolls from one to the next,
in a process whose other components open and close descriptors of their own. -/
namespace Tundra.LogDescriptors

open Library

/-- What an open descriptor stands for: the file of an mmapManager, or something of
another component. -/
inductive Object
  | logFile (manager : Nat)
  | other (owner : Nat)
deriving DecidableEq

/-- An mmapManager with the number it keeps in fd_. Its identity is its place in the
order of construction. -/
structure MmapManager where
  identity : Nat
  fd : Nat
deriving DecidableEq

/-- How far rollFile is: outside, behind the open of the new mmapManager, behind its
constructor, or behind the swap with the old one still to be destroyed. -/
inductive Roll
  | done
  | opened (next : MmapManager)
  | constructed (next : MmapManager)
  | swapped (old : MmapManager)
deriving DecidableEq

def Roll.isOpened : Roll → Bool
  | .opened _ => true
  | .done | .constructed _ | .swapped _ => false

def Roll.isConstructed : Roll → Bool
  | .constructed _ => true
  | .done | .opened _ | .swapped _ => false

def Roll.isSwapped : Roll → Bool
  | .swapped _ => true
  | .done | .opened _ | .constructed _ => false

def Object.isOther : Object → Bool
  | .other _ => true
  | .logFile _ => false

structure State where
  table : Nat → Option Object
  curMMap : Option MmapManager
  roll : Roll
  made : Nat

inductive Label
  | openLog (fd : Nat)
  | closeInConstructor
  | swap
  | destroyOld
  | destroyLogFile
  | openOther (owner fd : Nat)
  | closeOther (fd : Nat)
deriving DecidableEq

/-- close(2): the number is free afterwards, whatever it stood for. -/
def close (table : Nat → Option Object) (fd : Nat) : Nat → Option Object :=
  Function.update table fd none

def opens (table : Nat → Option Object) (fd : Nat) (object : Object) : Nat → Option Object :=
  Function.update table fd (some object)

/-- The kernel hands out any free number, and the other components close what they
have opened. -/
def Enabled (s : State) : Label → Prop
  | .openLog fd => s.roll = .done ∧ s.table fd = none
  | .closeInConstructor => s.roll.isOpened = true
  | .swap => s.roll.isConstructed = true
  | .destroyOld => s.roll.isSwapped = true
  | .destroyLogFile => s.roll = .done ∧ s.curMMap ≠ none
  | .openOther _ fd => s.table fd = none
  | .closeOther fd => (s.table fd).any Object.isOther = true

def next (s : State) : Label → Option State
  | .openLog fd => some { s with
      table := opens s.table fd (.logFile s.made)
      roll := .opened ⟨s.made, fd⟩
      made := s.made + 1 }
  | .closeInConstructor =>
      match s.roll with
      | .opened next => some { s with table := close s.table next.fd, roll := .constructed next }
      | _ => none
  | .swap =>
      match s.roll with
      | .constructed next => some { s with
          curMMap := some next
          roll := match s.curMMap with
            | none => .done
            | some old => .swapped old }
      | _ => none
  | .destroyOld =>
      match s.roll with
      | .swapped old => some { s with table := close s.table old.fd, roll := .done }
      | _ => none
  | .destroyLogFile =>
      match s.curMMap with
      | some current => some { s with table := close s.table current.fd, curMMap := none }
      | none => none
  | .openOther owner fd => some { s with table := opens s.table fd (.other owner) }
  | .closeOther fd => some { s with table := close s.table fd }

def machine : Machine State Label where
  enabled := Enabled
  step := next

/-- Before the first LogFile: whatever is open belongs to other components. -/
structure Initial (s : State) : Prop where
  others : ∀ fd manager, s.table fd ≠ some (.logFile manager)
  unmapped : s.curMMap = none
  outside : s.roll = .done

/-- The mmapManager that calls close in this step. -/
def closer (s : State) : Label → Option MmapManager
  | .closeInConstructor =>
      match s.roll with
      | .opened next => some next
      | _ => none
  | .destroyOld =>
      match s.roll with
      | .swapped old => some old
      | _ => none
  | .destroyLogFile => s.curMMap
  | .openLog _ | .swap | .openOther _ _ | .closeOther _ => none

/-- A close by an mmapManager is of a descriptor that it has opened itself and that
is still open. -/
def ClosesOwn (s : State) (label : Label) (_ : State) : Prop :=
  ∀ m ∈ closer s label, s.table m.fd = some (.logFile m.identity)

/-- The step runs the destructor of an mmapManager. -/
def Destroys : Label → Prop
  | .destroyOld | .destroyLogFile => True
  | .openLog _ | .closeInConstructor | .swap | .openOther _ _ | .closeOther _ => False

instance : (label : Label) → Decidable (Destroys label)
  | .destroyOld | .destroyLogFile => inferInstanceAs (Decidable True)
  | .openLog _ | .closeInConstructor | .swap | .openOther _ _ | .closeOther _ =>
      inferInstanceAs (Decidable False)

/-- A log file is open exactly between the open and the close of one constructor. -/
def Invariant (s : State) : Prop :=
  ∀ fd manager, s.table fd = some (.logFile manager) ↔ s.roll = .opened ⟨manager, fd⟩

theorem initial_invariant (s : State) (initial : Initial s) : Invariant s := by
  intro fd manager
  constructor
  · intro opened
    exact absurd opened (initial.others fd manager)
  · intro opened
    rw [initial.outside] at opened
    cases opened

/-- Outside the constructor no log file is open, and a close opens none. -/
theorem close_invariant (s : State) (fd : Nat) (curMMap : Option MmapManager) (roll : Roll)
    (inv : Invariant s) (gone : ∀ m, s.roll = .opened m → m.fd = fd)
    (outside : ∀ m, roll ≠ .opened m) :
    Invariant { s with table := close s.table fd, curMMap := curMMap, roll := roll } := by
  intro number manager
  constructor
  · intro opened
    by_cases here : number = fd
    · subst here
      simp only [close, Function.update_self] at opened
      cases opened
    · simp only [close, Function.update_of_ne here] at opened
      have under := (inv number manager).mp opened
      exact absurd (gone _ under) here
  · intro opened
    exact absurd opened (outside _)

/-- A change of a number that holds no log file, to something that is none. -/
theorem other_invariant (s : State) (fd : Nat) (object : Option Object) (inv : Invariant s)
    (before : ∀ manager, s.table fd ≠ some (.logFile manager))
    (after : ∀ manager, object ≠ some (.logFile manager)) :
    Invariant { s with table := Function.update s.table fd object } := by
  intro number manager
  by_cases here : number = fd
  · subst here
    simp only [Function.update_self]
    constructor
    · intro opened
      exact absurd opened (after manager)
    · intro opened
      exact absurd ((inv number manager).mpr opened) (before manager)
  · simp only [Function.update_of_ne here]
    exact inv number manager

theorem isOther_not_log (object : Option Object) (other : object.any Object.isOther = true)
    (manager : Nat) : object ≠ some (.logFile manager) := by
  intro same
  rw [same] at other
  cases other

theorem isOpened_exists (roll : Roll) (opened : roll.isOpened = true) :
    ∃ m, roll = .opened m := by
  cases roll with
  | opened m => exact ⟨m, rfl⟩
  | done => cases opened
  | constructed m => cases opened
  | swapped m => cases opened

theorem isConstructed_exists (roll : Roll) (constructed : roll.isConstructed = true) :
    ∃ m, roll = .constructed m := by
  cases roll with
  | constructed m => exact ⟨m, rfl⟩
  | done => cases constructed
  | opened m => cases constructed
  | swapped m => cases constructed

theorem isSwapped_exists (roll : Roll) (swapped : roll.isSwapped = true) :
    ∃ m, roll = .swapped m := by
  cases roll with
  | swapped m => exact ⟨m, rfl⟩
  | done => cases swapped
  | opened m => cases swapped
  | constructed m => cases swapped

/-- The open at the beginning of a constructor. -/
theorem openLog_invariant (s : State) (fd : Nat) (inv : Invariant s) (outside : s.roll = .done) :
    Invariant { s with
      table := opens s.table fd (.logFile s.made)
      roll := .opened ⟨s.made, fd⟩
      made := s.made + 1 } := by
  intro number manager
  by_cases here : number = fd
  · subst here
    simp only [opens, Function.update_self, Option.some.injEq, Object.logFile.injEq,
      Roll.opened.injEq, MmapManager.mk.injEq, and_true]
  · simp only [opens, Function.update_of_ne here]
    constructor
    · intro opened
      have under := (inv number manager).mp opened
      rw [outside] at under
      cases under
    · intro opened
      cases opened
      exact absurd rfl here

theorem next_invariant (s t : State) (label : Label) (inv : Invariant s)
    (enabled : Enabled s label) (moved : next s label = some t) : Invariant t := by
  cases label with
  | openLog fd =>
      cases moved
      exact openLog_invariant s fd inv enabled.1
  | closeInConstructor =>
      obtain ⟨m, at_⟩ := isOpened_exists s.roll enabled
      simp only [next, at_, Option.some.injEq] at moved
      subst moved
      apply close_invariant s m.fd s.curMMap (.constructed m) inv
      · intro other same
        rw [at_] at same
        cases same
        rfl
      · intro other
        simp
  | swap =>
      obtain ⟨m, at_⟩ := isConstructed_exists s.roll enabled
      simp only [next, at_, Option.some.injEq] at moved
      subst moved
      intro fd manager
      rw [inv fd manager, at_]
      cases s.curMMap <;> simp
  | destroyOld =>
      obtain ⟨m, at_⟩ := isSwapped_exists s.roll enabled
      simp only [next, at_, Option.some.injEq] at moved
      subst moved
      apply close_invariant s m.fd s.curMMap .done inv
      · intro other same
        rw [at_] at same
        cases same
      · intro other
        simp
  | destroyLogFile =>
      obtain ⟨m, current⟩ := Option.ne_none_iff_exists'.mp enabled.2
      simp only [next, current, Option.some.injEq] at moved
      subst moved
      apply close_invariant s m.fd none s.roll inv
      · intro other same
        rw [enabled.1] at same
        cases same
      · intro other
        rw [enabled.1]
        simp
  | openOther owner fd =>
      cases moved
      apply other_invariant s fd (some (.other owner)) inv
      · intro manager
        rw [show s.table fd = none from enabled]
        simp
      · intro manager
        simp
  | closeOther fd =>
      cases moved
      apply other_invariant s fd none inv (isOther_not_log (s.table fd) enabled)
      intro manager
      simp

theorem next_preserves : machine.Preserves Invariant := by
  intro s label t inv enabled moved
  exact next_invariant s t label inv enabled moved

/-- The constructor closes its own descriptor, and the destructor never does. -/
theorem step_closesOwn (s : State) (label : Label) (t : State) (inv : Invariant s)
    (enabled : machine.enabled s label) (_ : machine.step s label = some t) :
    ClosesOwn s label t ↔ ¬ Destroys label := by
  have silent (other : closer s label = none) (alive : ¬ Destroys label) :
      ClosesOwn s label t ↔ ¬ Destroys label := by
    constructor
    · intro _
      exact alive
    · intro _ m member
      rw [other] at member
      cases member
  cases label with
  | openLog fd => exact silent rfl id
  | swap => exact silent rfl id
  | openOther owner fd => exact silent rfl id
  | closeOther fd => exact silent rfl id
  | closeInConstructor =>
      constructor
      · intro _
        exact id
      · intro _ m member
        obtain ⟨n, at_⟩ := isOpened_exists s.roll enabled
        simp only [closer, at_, Option.mem_some_iff] at member
        apply (inv m.fd m.identity).mpr
        rw [at_, member]
  | destroyOld =>
      constructor
      · intro own
        obtain ⟨m, at_⟩ := isSwapped_exists s.roll enabled
        have opened := own m (by simp [closer, at_])
        have under := (inv m.fd m.identity).mp opened
        rw [at_] at under
        cases under
      · intro alive
        exact absurd trivial alive
  | destroyLogFile =>
      constructor
      · intro own
        obtain ⟨m, current⟩ := Option.ne_none_iff_exists'.mp enabled.2
        have opened := own m current
        have under := (inv m.fd m.identity).mp opened
        rw [enabled.1] at under
        cases under
      · intro alive
        exact absurd trivial alive

/-- In every run, all closes by mmapManagers are of their own open descriptors exactly
when no mmapManager is destroyed. -/
theorem logDescriptors_own_iff (s : State) (initial : Initial s) (labels : List Label) (t : State)
    (run : machine.Run s labels t) :
    machine.Along ClosesOwn s labels ↔ ∀ label ∈ labels, ¬ Destroys label := by
  have agree := run.along_iff next_preserves step_closesOwn (initial_invariant s initial)
  rw [agree]
  exact run.along_labels

instance (s : State) : (label : Label) → Decidable (machine.enabled s label)
  | .openLog fd => inferInstanceAs (Decidable (s.roll = .done ∧ s.table fd = none))
  | .closeInConstructor => inferInstanceAs (Decidable (s.roll.isOpened = true))
  | .swap => inferInstanceAs (Decidable (s.roll.isConstructed = true))
  | .destroyOld => inferInstanceAs (Decidable (s.roll.isSwapped = true))
  | .destroyLogFile => inferInstanceAs (Decidable (s.roll = .done ∧ s.curMMap ≠ none))
  | .openOther _ fd => inferInstanceAs (Decidable (s.table fd = none))
  | .closeOther fd => inferInstanceAs (Decidable ((s.table fd).any Object.isOther = true))

instance (s : State) (label : Label) (t : State) : Decidable (ClosesOwn s label t) :=
  inferInstanceAs (Decidable
    (∀ m ∈ closer s label, s.table m.fd = some (.logFile m.identity)))

/-- A process with nothing open above the standard streams. -/
def started : State := ⟨fun _ => none, none, .done, 0⟩

theorem started_initial : Initial started :=
  ⟨by simp [started], rfl, rfl⟩

/-- The LogFile is constructed with the number 3, which the next accepted socket
gets. -/
def firstFile : List Label := [.openLog 3, .closeInConstructor, .swap, .openOther 0 3]

theorem logDescriptors_own_firstFile :
    ∃ t, machine.Run started firstFile t ∧ t.table 3 = some (.other 0) ∧
      machine.Along ClosesOwn started firstFile := by
  obtain ⟨t, run, socket⟩ := machine.exists_run_of_play started firstFile (fun t => t.table 3)
    (some (.other 0)) (by decide +kernel)
  refine ⟨t, run, socket, ?_⟩
  exact (logDescriptors_own_iff started started_initial firstFile t run).mpr (by decide)

/-- The next roll closes the socket's number. -/
theorem logDescriptors_foreign :
    Initial started ∧ ∃ t, machine.Run started
      (firstFile ++ [.openLog 4, .closeInConstructor, .swap, .destroyOld]) t ∧
      t.table 3 = none ∧
      ¬ machine.Along ClosesOwn started
        (firstFile ++ [.openLog 4, .closeInConstructor, .swap, .destroyOld]) := by
  obtain ⟨t, run, socket⟩ := machine.exists_run_of_play started
    (firstFile ++ [.openLog 4, .closeInConstructor, .swap, .destroyOld]) (fun t => t.table 3)
    none (by decide +kernel)
  refine ⟨started_initial, t, run, socket, ?_⟩
  decide +kernel

end Tundra.LogDescriptors
