import Mathlib.Logic.Function.Iterate
import Mathlib.Order.WellFounded
import Tundra.Library.Machine

set_option autoImplicit false

/- Endless runs of a machine, and what is bound to happen in them. -/
namespace Library.Machine

variable {σ ι : Type*}

/-- At each time a step is taken, or nothing happens. -/
structure Execution (M : Machine σ ι) (s : σ) where
  state : Nat → σ
  label : Nat → Option ι
  begins : state 0 = s
  moves : ∀ n l, label n = some l →
    M.enabled (state n) l ∧ M.step (state n) l = some (state (n + 1))
  rests : ∀ n, label n = none → state (n + 1) = state n

namespace Execution

variable {M : Machine σ ι} {s : σ} (e : Execution M s)

theorem run (n : Nat) : ∃ labels, M.Run s labels (e.state n) := by
  induction n with
  | zero =>
      rw [e.begins]
      exact ⟨[], .nil⟩
  | succ n ih =>
      obtain ⟨labels, front⟩ := ih
      cases taken : e.label n with
      | none =>
          rw [e.rests n taken]
          exact ⟨labels, front⟩
      | some label =>
          obtain ⟨allowed, moved⟩ := e.moves n label taken
          exact ⟨labels ++ [label], front.snoc allowed moved⟩

theorem invariant {inv : σ → Prop} (keeps : M.Preserves inv) (start : inv s) (n : Nat) :
    inv (e.state n) := by
  obtain ⟨_, run⟩ := e.run n
  exact run.invariant keeps start

/-- What every step keeps holds from then on. -/
theorem kept {p : σ → Prop}
    (keeps : ∀ n l, e.label n = some l → p (e.state n) → p (e.state (n + 1))) {n m : Nat}
    (later : n ≤ m) (now : p (e.state n)) : p (e.state m) := by
  induction later with
  | refl => exact now
  | @step m _ ih =>
      cases taken : e.label m with
      | none =>
          rw [e.rests m taken]
          exact ih
      | some label => exact keeps m label taken ih

/-- Something that holds is over at some time: there is a step that ends it. -/
theorem exists_step_ending {p : σ → Prop} {n m : Nat} (later : n ≤ m) (now : p (e.state n))
    (then_ : ¬ p (e.state m)) :
    ∃ k label, n ≤ k ∧ k < m ∧ e.label k = some label ∧ p (e.state k) ∧
      ¬ p (e.state (k + 1)) := by
  induction later with
  | refl => exact absurd now then_
  | @step m before ih =>
      by_cases still : p (e.state m)
      · cases taken : e.label m with
        | none =>
            rw [e.rests m taken] at then_
            exact absurd still then_
        | some label => exact ⟨m, label, before, Nat.lt_succ_self m, taken, still, then_⟩
      · obtain ⟨k, label, from_, until_, found⟩ := ih still
        exact ⟨k, label, from_, Nat.lt_succ_of_lt until_, found⟩

/-- A rank that no step raises and that the steps onward lower, as long as the goal is not
reached: if such steps keep coming, the goal is reached. -/
theorem reaches {ω : Type*} [Preorder ω] [WellFoundedLT ω] (goal : σ → Prop) (onward : ι → Prop)
    (rank : σ → ω) (since : Nat)
    (steady : ∀ n ≥ since, ∀ label, e.label n = some label → ¬ goal (e.state n) →
      goal (e.state (n + 1)) ∨ rank (e.state (n + 1)) ≤ rank (e.state n))
    (lowers : ∀ n ≥ since, ∀ label, e.label n = some label → onward label → ¬ goal (e.state n) →
      goal (e.state (n + 1)) ∨ rank (e.state (n + 1)) < rank (e.state n))
    (comes : ∀ n ≥ since, ∃ m ≥ n, goal (e.state m) ∨
      ∃ label, e.label m = some label ∧ onward label) :
    ∃ m ≥ since, goal (e.state m) := by
  -- up to any time the rank stays below what it was, unless the goal is reached
  have below (n k : Nat) (late : since ≤ n) (from_ : n ≤ k) :
      (∃ i ≥ since, goal (e.state i)) ∨ rank (e.state k) ≤ rank (e.state n) := by
    induction from_ with
    | refl => exact Or.inr le_rfl
    | @step k before inner =>
        have later := Nat.le_trans late before
        rcases inner with found | le
        · exact Or.inl found
        · by_cases here : goal (e.state k)
          · exact Or.inl ⟨k, later, here⟩
          · cases taken : e.label k with
            | none =>
                rw [e.rests k taken]
                exact Or.inr le
            | some label =>
                rcases steady k later label taken here with there | less
                · exact Or.inl ⟨k + 1, Nat.le_succ_of_le later, there⟩
                · exact Or.inr (less.trans le)
  have from_ (n : Nat) (late : since ≤ n) : ∃ m ≥ since, goal (e.state m) := by
    induction known : rank (e.state n) using WellFoundedLT.induction generalizing n with
    | ind bound ih =>
        subst known
        obtain ⟨m, later, next⟩ := comes n late
        have after := Nat.le_trans late later
        by_cases here : goal (e.state m)
        · exact ⟨m, after, here⟩
        · obtain ⟨label, taken, forward⟩ := next.resolve_left here
          rcases below n m late later with found | le
          · exact found
          · rcases lowers m after label taken forward here with there | less
            · exact ⟨m + 1, Nat.le_succ_of_le after, there⟩
            · exact ih _ (less.trans_le le) (m + 1) (Nat.le_succ_of_le after) rfl
  exact from_ since le_rfl

/-- Nothing happens. -/
def rest (M : Machine σ ι) (s : σ) : Execution M s where
  state _ := s
  label _ := none
  begins := rfl
  moves _ _ taken := by cases taken
  rests _ _ := rfl

end Execution

variable {M : Machine σ ι} {s t : σ}

/-- A run, and an endless one behind it. -/
theorem exists_execution {labels : List ι} (run : M.Run s labels t) (later : Execution M t) :
    ∃ e : Execution M s,
      (∀ n, e.state (n + labels.length) = later.state n ∧
        e.label (n + labels.length) = later.label n) ∧
      (∀ n ≤ labels.length, M.Run s (labels.take n) (e.state n)) ∧
      ∀ n < labels.length, e.label n = labels[n]? := by
  induction labels generalizing s with
  | nil =>
      cases run.eq_of_nil
      refine ⟨later, fun n => ⟨rfl, rfl⟩, ?_, fun n none => absurd none (Nat.not_lt_zero n)⟩
      intro n none
      cases Nat.le_zero.mp none
      rw [later.begins]
      exact .nil
  | cons label rest ih =>
      obtain ⟨u, allowed, moved, onward⟩ := run.uncons
      obtain ⟨e, ends, runs, taken⟩ := ih onward
      refine ⟨⟨fun n => n.casesOn s e.state, fun n => n.casesOn (some label) e.label, rfl, ?_, ?_⟩,
        ends, ?_, ?_⟩
      · intro n l taken
        cases n with
        | zero =>
            cases taken
            exact ⟨allowed, moved.trans (congrArg some e.begins.symm)⟩
        | succ n => exact e.moves n l taken
      · intro n taken
        cases n with
        | zero => cases taken
        | succ n => exact e.rests n taken
      · intro n within
        cases n with
        | zero => exact .nil
        | succ n => exact .cons allowed moved (runs n (Nat.le_of_succ_le_succ within))
      · intro n within
        cases n with
        | zero => rfl
        | succ n => exact taken n (Nat.lt_of_succ_lt_succ within)

/-- A run, behind which nothing happens. -/
theorem exists_stopping {labels : List ι} (run : M.Run s labels t) :
    ∃ e : Execution M s, (∀ n ≥ labels.length, e.state n = t) ∧ (∀ n, ∃ m ≥ n, e.state m = t) ∧
      (∀ n ≤ labels.length, M.Run s (labels.take n) (e.state n)) ∧
      ∀ n, e.label n = labels[n]? := by
  obtain ⟨e, ends, runs, taken⟩ := exists_execution run (.rest M t)
  have last (n : Nat) (behind : labels.length ≤ n) : e.state n = t ∧ e.label n = none := by
    have same := ends (n - labels.length)
    rw [Nat.sub_add_cancel behind] at same
    exact same
  refine ⟨e, fun n behind => (last n behind).1, ?_, runs, ?_⟩
  · intro n
    exact ⟨max n labels.length, Nat.le_max_left _ _, (last _ (Nat.le_max_right _ _)).1⟩
  · intro n
    by_cases within : n < labels.length
    · exact taken n within
    · rw [(last n (Nat.not_lt.mp within)).2, List.getElem?_eq_none (Nat.not_lt.mp within)]

/-- Where there is always a fitting step, there is an endless run of fitting steps. -/
theorem exists_endless {inv : σ → Prop} {fit : ι → Prop}
    (goes : ∀ s, inv s → ∃ label t, fit label ∧ M.enabled s label ∧ M.step s label = some t ∧
      inv t) (start : inv s) :
    ∃ e : Execution M s, ∀ n, inv (e.state n) ∧ ∃ label, e.label n = some label ∧ fit label := by
  choose label next fits allowed moved kept using goes
  let after : { s // inv s } → { s // inv s } := fun s => ⟨next s.1 s.2, kept s.1 s.2⟩
  let states : Nat → { s // inv s } := fun n => after^[n] ⟨s, start⟩
  have onward (n : Nat) : (states (n + 1)).1 = next (states n).1 (states n).2 := by
    change (after^[n + 1] _).1 = _
    rw [Function.iterate_succ_apply']
  refine ⟨⟨fun n => (states n).1, fun n => some (label (states n).1 (states n).2), rfl, ?_, ?_⟩,
    ?_⟩
  · intro n l taken
    cases taken
    refine ⟨allowed _ _, ?_⟩
    rw [onward, moved]
  · intro n none
    cases none
  · intro n
    exact ⟨(states n).2, _, rfl, fits _ _⟩

end Library.Machine
