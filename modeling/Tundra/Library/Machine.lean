import Mathlib.Data.List.Basic

set_option autoImplicit false

/- Machines driven by labels. The environment picks a label among those enabled
in the current state and the program answers with its next state, or with
`none` when one of its assertions fails. -/
namespace Library

structure Machine (σ ι : Type*) where
  enabled : σ → ι → Prop
  step : σ → ι → Option σ

namespace Machine

variable {σ ι : Type*}

/-- The labels, each enabled when it is taken, lead from `s` to the last state. -/
inductive Run (M : Machine σ ι) (s : σ) : List ι → σ → Prop
  | nil : Run M s [] s
  | snoc {labels : List ι} {t u : σ} {label : ι} (front : Run M s labels t)
      (allowed : M.enabled t label) (moved : M.step t label = some u) :
      Run M s (labels ++ [label]) u

/-- Only the labels that also satisfy `cond` in the current state. -/
def restrict (M : Machine σ ι) (cond : σ → ι → Prop) : Machine σ ι where
  enabled s label := M.enabled s label ∧ cond s label
  step := M.step

/-- The labels played in order; the play stops at a label that is not enabled. -/
def play (M : Machine σ ι) [∀ s label, Decidable (M.enabled s label)] (s : σ) :
    List ι → Option σ
  | [] => some s
  | label :: rest =>
      if M.enabled s label then (M.step s label).bind fun t => M.play t rest else none

/-- The steps taken along the labels, each with the states before and after it. -/
def trace (M : Machine σ ι) (s : σ) : List ι → List (σ × ι × σ)
  | [] => []
  | label :: rest =>
      match M.step s label with
      | some t => (s, label, t) :: M.trace t rest
      | none => []

/-- Every step taken along the labels is as `good` says. -/
def Along (M : Machine σ ι) (good : σ → ι → σ → Prop) (s : σ) : List ι → Prop
  | [] => True
  | label :: rest => ∀ t, M.step s label = some t → good s label t ∧ M.Along good t rest

instance decidableAlong (M : Machine σ ι) (good : σ → ι → σ → Prop)
    [∀ s label t, Decidable (good s label t)] :
    (s : σ) → (labels : List ι) → Decidable (M.Along good s labels)
  | _, [] => inferInstanceAs (Decidable True)
  | s, label :: rest =>
      match moved : M.step s label with
      | none => isTrue fun t stepped => by rw [moved] at stepped; cases stepped
      | some t =>
          have := decidableAlong M good t rest
          decidable_of_iff (good s label t ∧ M.Along good t rest)
            ⟨fun both u stepped => Option.some.inj (moved.symm.trans stepped) ▸ both,
              fun along => along t moved⟩

/-- The labels lead from `x` to the last value, in a specification that may leave the
next value open. -/
inductive Path {β : Type*} (spec : β → ι → β → Prop) (x : β) : List ι → β → Prop
  | nil : Path spec x [] x
  | snoc {labels : List ι} {y z : β} {label : ι} (front : Path spec x labels y)
      (next : spec y label z) : Path spec x (labels ++ [label]) z

/-- The invariant survives every enabled step that completes. -/
def Preserves (M : Machine σ ι) (inv : σ → Prop) : Prop :=
  ∀ s label t, inv s → M.enabled s label → M.step s label = some t → inv t

variable {M : Machine σ ι} {s t u : σ} {labels more : List ι}

theorem Run.invariant {inv : σ → Prop} (keeps : M.Preserves inv) (start : inv s)
    (run : M.Run s labels t) : inv t := by
  induction run with
  | nil => exact start
  | snoc _ allowed moved ih => exact keeps _ _ _ ih allowed moved

/-- A machine whose steps, seen through `view`, are steps of a specification. -/
theorem Run.simulates {β : Type*} {spec : β → ι → β → Prop} (view : σ → β)
    (simulated : ∀ s label t, M.enabled s label → M.step s label = some t →
      spec (view s) label (view t))
    (run : M.Run s labels t) : Path spec (view s) labels (view t) := by
  induction run with
  | nil => exact .nil
  | snoc _ allowed moved ih => exact ih.snoc (simulated _ _ _ allowed moved)

theorem Run.append (front : M.Run s labels t) (back : M.Run t more u) :
    M.Run s (labels ++ more) u := by
  induction back with
  | nil => simpa only [List.append_nil] using front
  | snoc _ allowed moved ih =>
      rw [← List.append_assoc]
      exact ih.snoc allowed moved

theorem Run.single {label : ι} (allowed : M.enabled s label) (moved : M.step s label = some t) :
    M.Run s [label] t := by
  simpa only [List.nil_append] using Run.nil.snoc allowed moved

theorem Run.cons {label : ι} (allowed : M.enabled s label) (moved : M.step s label = some t)
    (rest : M.Run t labels u) : M.Run s (label :: labels) u := by
  simpa only [List.singleton_append] using (Run.single allowed moved).append rest

theorem Run.eq_of_nil (run : M.Run s [] t) : t = s := by
  generalize none : ([] : List ι) = all at run
  cases run with
  | nil => rfl
  | snoc front allowed moved => exact absurd none.symm (by simp)

theorem Run.uncons {label : ι} (run : M.Run s (label :: labels) u) :
    ∃ t, M.enabled s label ∧ M.step s label = some t ∧ M.Run t labels u := by
  generalize whole : label :: labels = all at run
  induction run generalizing labels with
  | nil => cases whole
  | @snoc front t u last before allowed moved ih =>
      cases front with
      | nil =>
          cases before.eq_of_nil
          cases whole
          exact ⟨u, allowed, moved, .nil⟩
      | cons first middle =>
          rw [List.cons_append, List.cons.injEq] at whole
          obtain ⟨rfl, rfl⟩ := whole
          obtain ⟨v, permitted, stepped, rest⟩ := ih rfl
          exact ⟨v, permitted, stepped, rest.snoc allowed moved⟩

theorem Run.cons_iff {label : ι} (allowed : M.enabled s label) (moved : M.step s label = some t) :
    M.Run s (label :: labels) u ↔ M.Run t labels u := by
  constructor
  · intro run
    obtain ⟨v, _, stepped, rest⟩ := run.uncons
    obtain rfl : t = v := Option.some.inj (moved.symm.trans stepped)
    exact rest
  · intro rest
    exact .cons allowed moved rest

theorem Run.unique (run : M.Run s labels t) (other : M.Run s labels u) : t = u := by
  induction labels generalizing s with
  | nil => rw [run.eq_of_nil, other.eq_of_nil]
  | cons label rest ih =>
      obtain ⟨v, allowed, moved, later⟩ := run.uncons
      exact ih later ((Run.cons_iff allowed moved).mp other)

/-- What holds of every step from an invariant state holds along every run. -/
theorem Run.along {inv : σ → Prop} {good : σ → ι → σ → Prop} (keeps : M.Preserves inv)
    (holds : ∀ s label t, inv s → M.enabled s label → M.step s label = some t → good s label t)
    (start : inv s) (run : M.Run s labels u) : M.Along good s labels := by
  induction labels generalizing s with
  | nil => trivial
  | cons label rest ih =>
      obtain ⟨t, allowed, moved, later⟩ := run.uncons
      intro v stepped
      obtain rfl : t = v := Option.some.inj (moved.symm.trans stepped)
      exact ⟨holds s label t start allowed moved, ih (keeps s label t start allowed moved) later⟩

/-- A log to which every step appends what `out` says, along a run. -/
theorem Run.log_trace {inv : σ → Prop} {β : Type*} (keeps : M.Preserves inv) (log : σ → List β)
    (out : σ → ι → σ → List β)
    (logged : ∀ s label t, inv s → M.enabled s label → M.step s label = some t →
      log t = log s ++ out s label t)
    (start : inv s) (run : M.Run s labels u) :
    log u = log s ++ (M.trace s labels).flatMap fun step => out step.1 step.2.1 step.2.2 := by
  induction labels generalizing s with
  | nil =>
      rw [run.eq_of_nil]
      exact (List.append_nil _).symm
  | cons label rest ih =>
      obtain ⟨t, allowed, moved, later⟩ := run.uncons
      have onward := ih (keeps s label t start allowed moved) later
      rw [trace, moved]
      dsimp only
      rw [List.flatMap_cons, ← List.append_assoc, ← logged s label t start allowed moved]
      exact onward

/-- What holds of every step from an invariant state holds of all steps of a run. -/
theorem Run.forall_trace {inv : σ → Prop} {good : σ → ι → σ → Prop} (keeps : M.Preserves inv)
    (holds : ∀ s label t, inv s → M.enabled s label → M.step s label = some t → good s label t)
    (start : inv s) (run : M.Run s labels u) :
    ∀ step ∈ M.trace s labels, good step.1 step.2.1 step.2.2 := by
  induction labels generalizing s with
  | nil =>
      intro step member
      cases member
  | cons label rest ih =>
      obtain ⟨t, allowed, moved, later⟩ := run.uncons
      rw [trace, moved]
      dsimp only
      rw [List.forall_mem_cons]
      exact ⟨holds s label t start allowed moved, ih (keeps s label t start allowed moved) later⟩

/-- Two descriptions of good steps that agree from every invariant state agree
along every run, when the good steps keep the invariant. -/
theorem Run.along_iff_of_kept {inv : σ → Prop} {good fine : σ → ι → σ → Prop}
    (kept : ∀ s label t, inv s → M.enabled s label → M.step s label = some t → good s label t →
      inv t)
    (agree : ∀ s label t, inv s → M.enabled s label → M.step s label = some t →
      (good s label t ↔ fine s label t))
    (start : inv s) (run : M.Run s labels u) : M.Along good s labels ↔ M.Along fine s labels := by
  induction labels generalizing s with
  | nil => exact Iff.rfl
  | cons label rest ih =>
      obtain ⟨t, allowed, moved, later⟩ := run.uncons
      have here := agree s label t start allowed moved
      have there (step : good s label t) := ih (kept s label t start allowed moved step) later
      unfold Along
      constructor
      · intro along v stepped
        obtain rfl : t = v := Option.some.inj (moved.symm.trans stepped)
        obtain ⟨step, onward⟩ := along t moved
        exact ⟨here.mp step, (there step).mp onward⟩
      · intro along v stepped
        obtain rfl : t = v := Option.some.inj (moved.symm.trans stepped)
        obtain ⟨step, onward⟩ := along t moved
        exact ⟨here.mpr step, (there (here.mpr step)).mpr onward⟩

theorem Run.along_iff {inv : σ → Prop} {good fine : σ → ι → σ → Prop} (keeps : M.Preserves inv)
    (agree : ∀ s label t, inv s → M.enabled s label → M.step s label = some t →
      (good s label t ↔ fine s label t))
    (start : inv s) (run : M.Run s labels u) : M.Along good s labels ↔ M.Along fine s labels :=
  run.along_iff_of_kept
    (fun s label t known allowed moved _ => keeps s label t known allowed moved) agree start

/-- A run along which a condition holds is a run of the machine restricted to it. -/
theorem Run.restrict {cond : σ → ι → Prop} (run : M.Run s labels u)
    (along : M.Along (fun s label _ => cond s label) s labels) :
    (M.restrict cond).Run s labels u := by
  induction labels generalizing s with
  | nil =>
      rw [run.eq_of_nil]
      exact .nil
  | cons label rest ih =>
      obtain ⟨t, allowed, moved, later⟩ := run.uncons
      obtain ⟨holds, onward⟩ := along t moved
      exact .cons ⟨allowed, holds⟩ moved (ih later onward)

theorem Run.of_restrict {cond : σ → ι → Prop} (run : (M.restrict cond).Run s labels u) :
    M.Run s labels u := by
  induction run with
  | nil => exact .nil
  | snoc _ allowed moved ih => exact ih.snoc allowed.1 moved

/-- A condition on the labels alone. -/
theorem Run.along_labels {good : ι → Prop} (run : M.Run s labels u) :
    M.Along (fun _ label _ => good label) s labels ↔ ∀ label ∈ labels, good label := by
  induction labels generalizing s with
  | nil => simp [Along]
  | cons label rest ih =>
      obtain ⟨t, _, moved, later⟩ := run.uncons
      have there := ih later
      rw [List.forall_mem_cons, ← there]
      constructor
      · intro along
        exact along t moved
      · intro both v stepped
        obtain rfl : t = v := Option.some.inj (moved.symm.trans stepped)
        exact both

/-- A rank that some step lowers, unless it is 0, can be brought down to 0. -/
theorem exists_run_lowered {inv : σ → Prop} {fit : ι → Prop} (rank : σ → Nat)
    (lower : ∀ s, inv s → rank s ≠ 0 → ∃ label t, fit label ∧ M.enabled s label ∧
      M.step s label = some t ∧ inv t ∧ rank t < rank s) (start : inv s) :
    ∃ labels t, M.Run s labels t ∧ (∀ label ∈ labels, fit label) ∧ inv t ∧ rank t = 0 := by
  induction bound : rank s using Nat.strongRecOn generalizing s with
  | ind n ih =>
      by_cases zero : rank s = 0
      · exact ⟨[], s, .nil, List.forall_mem_nil _, start, zero⟩
      · obtain ⟨label, t, fits, allowed, moved, kept, less⟩ := lower s start zero
        obtain ⟨labels, u, rest, others, ends, lowest⟩ := ih (rank t) (by omega) kept rfl
        exact ⟨label :: labels, u, .cons allowed moved rest,
          List.forall_mem_cons.mpr ⟨fits, others⟩, ends, lowest⟩

/-- A play that gets to its end is a run. -/
theorem run_of_play (M : Machine σ ι) [∀ s label, Decidable (M.enabled s label)] (s : σ)
    (labels : List ι) (t : σ) (played : M.play s labels = some t) : M.Run s labels t := by
  induction labels generalizing s with
  | nil =>
      cases played
      exact .nil
  | cons label rest ih =>
      unfold play at played
      split at played
      · rename_i allowed
        obtain ⟨u, moved, later⟩ := Option.bind_eq_some_iff.mp played
        exact .cons allowed moved (ih u later)
      · cases played

/-- The same with `view` as what is looked at in the end. -/
theorem exists_run_of_play (M : Machine σ ι) [∀ s label, Decidable (M.enabled s label)]
    (s : σ) (labels : List ι) {β : Type*} (view : σ → β) (result : β)
    (played : (M.play s labels).map view = some result) :
    ∃ t, M.Run s labels t ∧ view t = result := by
  obtain ⟨t, reached, seen⟩ := Option.map_eq_some_iff.mp played
  exact ⟨t, run_of_play M s labels t reached, seen⟩

end Machine
end Library
