import Tundra.Library.Monitor

set_option autoImplicit false

/- util/BlockingQueue: a bounded queue behind one mutex with the condition variables
cond_empty_ and cond_full_, called by any number of threads. -/
namespace Tundra.BlockingQueue

open Library

/-- The members that the mutex guards. -/
structure Guarded (α : Type*) where
  queue : List α
  capacity : Nat

/-- The public members, each of which locks mtx_ to its end. -/
inductive Call (α : Type*)
  | push (x : α)
  | take
  | empty
  | full
  | size
  | capacity
deriving DecidableEq

inductive Condition
  | condEmpty
  | condFull
deriving DecidableEq

inductive Answer (α : Type*)
  | done
  | element (x : α)
  | flag (value : Bool)
  | count (value : Nat)
deriving DecidableEq

variable {α : Type*}

namespace Guarded

def push (d : Guarded α) (x : α) : Option (Guarded α) :=
  if d.queue.length < d.capacity then some { d with queue := d.queue ++ [x] } else none

def take (d : Guarded α) : Option (Guarded α × α) :=
  match d.queue with
  | [] => none
  | element :: rest => some ({ d with queue := rest }, element)

def empty (d : Guarded α) : Bool := d.queue.isEmpty

def full (d : Guarded α) : Bool := d.capacity ≤ d.queue.length

end Guarded

/-- What the predicates of the waits and the bodies behind them do. -/
def monitor (α : Type*) : Monitor (Guarded α) (Call α) Condition (Answer α) where
  waitsOn
    | .push _ => some .condFull
    | .take => some .condEmpty
    | _ => none
  ready d
    | .push _ => d.queue.length < d.capacity
    | .take => !d.queue.isEmpty
    | _ => true
  body d
    | .push x => (d.push x).map fun d' => (d', .done)
    | .take => d.take.map fun (d', x) => (d', .element x)
    | .empty => some (d, .flag d.empty)
    | .full => some (d, .flag d.full)
    | .size => some (d, .count d.queue.length)
    | .capacity => some (d, .count d.capacity)
  notifies
    | .push _, .condEmpty => true
    | .take, .condFull => true
    | _, _ => false

/-- A queue that no thread has called yet. -/
def create (τ : Type*) (α : Type*) (maxCapacity : Nat) :
    Monitor.State τ (Guarded α) (Call α) (Answer α) :=
  Monitor.start τ (Call α) (Answer α) { queue := [], capacity := maxCapacity }

/-- The elements pushed by the executed calls, in their order. -/
def pushed (log : List (Call α × Answer α)) : List α :=
  log.filterMap fun
    | (.push x, _) => some x
    | _ => none

/-- The elements that the executed calls returned, in their order. -/
def taken (log : List (Call α × Answer α)) : List α :=
  log.filterMap fun
    | (.take, .element x) => some x
    | _ => none

/-- The queue behind the mutex is a bounded first-in first-out queue. -/
structure Fifo (capacity : Nat) (d : Guarded α) (log : List (Call α × Answer α)) : Prop where
  bound : d.capacity = capacity
  size : d.queue.length ≤ capacity
  order : taken log ++ d.queue = pushed log

theorem push_eq {d d' : Guarded α} {x : α} (ran : d.push x = some d') :
    d.queue.length < d.capacity ∧ d' = { d with queue := d.queue ++ [x] } := by
  unfold Guarded.push at ran
  split at ran
  · rename_i room
    exact ⟨room, (Option.some.inj ran).symm⟩
  · cases ran

theorem take_eq {d d' : Guarded α} {x : α} (ran : d.take = some (d', x)) :
    d.queue = x :: d'.queue ∧ d'.capacity = d.capacity := by
  unfold Guarded.take at ran
  split at ran
  · cases ran
  · rename_i first rest shape
    cases ran
    exact ⟨shape, rfl⟩

/-- What a critical section can do. -/
theorem body_cases {d d' : Guarded α} {op : Call α} {result : Answer α}
    (ran : (monitor α).body d op = some (d', result)) :
    (∃ x, op = .push x ∧ result = .done ∧ d.push x = some d') ∨
    (∃ x, op = .take ∧ result = .element x ∧ d.take = some (d', x)) ∨
    (d' = d ∧ pushed [(op, result)] = [] ∧ taken [(op, result)] = []) := by
  cases op with
  | push x =>
      obtain ⟨after, grown, same⟩ := Option.map_eq_some_iff.mp ran
      cases same
      exact .inl ⟨x, rfl, rfl, grown⟩
  | take =>
      obtain ⟨⟨after, x⟩, shrunk, same⟩ := Option.map_eq_some_iff.mp ran
      cases same
      exact .inr (.inl ⟨x, rfl, rfl, shrunk⟩)
  | empty | full | size | capacity =>
      cases ran
      exact .inr (.inr ⟨rfl, rfl, rfl⟩)

/-- push makes the queue ready for take only, and take for push only; each notifies the
condition the other one waits on. -/
theorem monitor_covers : (monitor α).Covers := by
  intro d done d' result op ran busy ready
  obtain ⟨x, rfl, rfl, grown⟩ | ⟨x, rfl, rfl, shrunk⟩ | ⟨rfl, _⟩ := body_cases ran
  · obtain ⟨room, rfl⟩ := push_eq grown
    cases op with
    | push y =>
        have still : d.queue.length < d.capacity := room
        exact absurd (decide_eq_true still) (Bool.eq_false_iff.mp busy)
    | take => rfl
    | empty | full | size | capacity => cases busy
  · obtain ⟨shape, _⟩ := take_eq shrunk
    cases op with
    | push y => rfl
    | take =>
        have empty : d.queue.isEmpty = true := by simpa [monitor] using busy
        rw [shape] at empty
        cases empty
    | empty | full | size | capacity => cases busy
  · rw [busy] at ready
    cases ready

theorem pushed_append (log more : List (Call α × Answer α)) :
    pushed (log ++ more) = pushed log ++ pushed more := List.filterMap_append ..

theorem taken_append (log more : List (Call α × Answer α)) :
    taken (log ++ more) = taken log ++ taken more := List.filterMap_append ..

theorem monitor_keeps (capacity : Nat) : (monitor α).Keeps (Fifo capacity) := by
  intro d log op d' result fifo _ ran
  obtain ⟨x, rfl, rfl, grown⟩ | ⟨x, rfl, rfl, shrunk⟩ | ⟨rfl, unpushed, untaken⟩ := body_cases ran
  · obtain ⟨room, rfl⟩ := push_eq grown
    have bound := fifo.bound
    refine ⟨bound, ?_, ?_⟩
    · rw [List.length_append, List.length_singleton]
      omega
    · calc taken (log ++ [(.push x, .done)]) ++ (d.queue ++ [x])
          = (taken log ++ d.queue) ++ [x] := by simp [taken]
        _ = pushed log ++ [x] := by rw [fifo.order]
        _ = pushed (log ++ [(.push x, .done)]) := by simp [pushed]
  · obtain ⟨shape, same⟩ := take_eq shrunk
    refine ⟨same.trans fifo.bound, ?_, ?_⟩
    · have size := fifo.size
      rw [shape, List.length_cons] at size
      omega
    · calc taken (log ++ [(.take, .element x)]) ++ d'.queue
          = taken log ++ d.queue := by simp [taken, shape]
        _ = pushed log := fifo.order
        _ = pushed (log ++ [(.take, .element x)]) := by simp [pushed]
  · refine ⟨fifo.bound, fifo.size, ?_⟩
    rw [taken_append, pushed_append, unpushed, untaken, List.append_nil, List.append_nil]
    exact fifo.order

section Runs

variable {τ : Type*} [DecidableEq τ] {capacity : Nat}
  {labels : List (Monitor.Label τ (Call α) (Answer α))}
  {s : Monitor.State τ (Guarded α) (Call α) (Answer α)}

theorem run_fifo (run : (monitor α).machine.Run (create τ α capacity) labels s) :
    (monitor α).Sound s ∧ Fifo capacity s.data s.log :=
  Monitor.run_invariant monitor_covers (monitor_keeps capacity) ⟨rfl, Nat.zero_le _, rfl⟩ run

/-- A bounded first-in first-out queue without lost wakeups. -/
theorem bounded_fifo_without_lost_wakeups
    (run : (monitor α).machine.Run (create τ α capacity) labels s) :
    s.data.queue.length ≤ capacity ∧
    taken s.log ++ s.data.queue = pushed s.log ∧
    (∀ t op, s.place t = .sleeping op → (monitor α).waitsOn op = some .condFull →
      ¬ s.data.queue.length < capacity) ∧
    (∀ t op, s.place t = .sleeping op → (monitor α).waitsOn op = some .condEmpty →
      ¬ 0 < s.data.queue.length) := by
  obtain ⟨sound, fifo⟩ := run_fifo run
  refine ⟨fifo.size, fifo.order, ?_, ?_⟩
  · intro t op sleeps on room
    have busy := sound.asleep sleeps
    cases op with
    | push x =>
        rw [← fifo.bound] at room
        exact absurd (decide_eq_true room) (Bool.eq_false_iff.mp busy)
    | take | empty | full | size | capacity => cases on
  · intro t op sleeps on some
    have busy := sound.asleep sleeps
    cases op with
    | take =>
        have empty : s.data.queue = [] := by simpa [monitor] using busy
        rw [empty] at some
        exact absurd some (Nat.lt_irrefl 0)
    | push | empty | full | size | capacity => cases on

/-- A second producer finds the only place of the queue taken. -/
def secondPush : List (Monitor.Label Nat (Call Nat) (Answer Nat)) :=
  [.call 0 (.push 7), .acquire 0 (.push 7), .test 0 (.push 7), .call 1 (.push 8),
    .act 0 (.push 7), .release 0 .done, .acquire 1 (.push 8), .test 1 (.push 8),
    .sleep 1 (.push 8)]

theorem fifo_with_sleeping_producer :
    ∃ s, (monitor Nat).machine.Run (create Nat Nat 1) secondPush s ∧
      s.place 1 = .sleeping (.push 8) ∧ taken s.log ++ s.data.queue = [7] ∧
      ¬ s.data.queue.length < 1 := by
  obtain ⟨s, run, seen⟩ := (monitor Nat).machine.exists_run_of_play (create Nat Nat 1) secondPush
    (fun s => (decide (s.place 1 = .sleeping (.push 8)), pushed s.log)) (true, [7])
    (by decide +kernel)
  have sleeps : s.place 1 = .sleeping (.push 8) := of_decide_eq_true (Prod.ext_iff.mp seen).1
  have queue := bounded_fifo_without_lost_wakeups run
  exact ⟨s, run, sleeps, queue.2.1.trans (Prod.ext_iff.mp seen).2,
    queue.2.2.1 1 (.push 8) sleeps rfl⟩

/-- Neither assertion of push and take fails. -/
theorem next_completes (run : (monitor α).machine.Run (create τ α capacity) labels s)
    {label : Monitor.Label τ (Call α) (Answer α)} (allowed : Monitor.Enabled s label) :
    ((monitor α).next s label).isSome := by
  refine Monitor.next_isSome (run_fifo run).1 allowed ?_
  intro op ready
  cases op with
  | push x =>
      have room : s.data.queue.length < s.data.capacity := of_decide_eq_true ready
      simp [monitor, Guarded.push, room]
  | take =>
      cases shape : s.data.queue with
      | nil => simp [monitor, shape] at ready
      | cons x rest => simp [monitor, Guarded.take, shape]
  | empty | full | size | capacity => rfl

end Runs

end Tundra.BlockingQueue
