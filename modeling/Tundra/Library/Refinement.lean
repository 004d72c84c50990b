import Tundra.Library.Machine

set_option autoImplicit false

/- Machines seen through another one: each step of the first is a run of the second, which
may be empty. -/
namespace Library
namespace Machine

variable {σ ι β κ : Type*} {M : Machine σ ι} {A : Machine β κ}

/-- From states with the invariant, a step of `M` is a run of `A`. -/
def Simulates (M : Machine σ ι) (A : Machine β κ) (inv : σ → Prop) (view : σ → β) : Prop :=
  ∀ s label t, inv s → M.enabled s label → M.step s label = some t →
    inv t ∧ ∃ steps, A.Run (view s) steps (view t)

variable {inv : σ → Prop} {view : σ → β} {s t : σ} {labels : List ι}

theorem Simulates.preserves (simulates : M.Simulates A inv view) : M.Preserves inv :=
  fun s label t known allowed moved => (simulates s label t known allowed moved).1

theorem Run.refines (run : M.Run s labels t) (simulates : M.Simulates A inv view)
    (start : inv s) : ∃ steps, A.Run (view s) steps (view t) := by
  induction run with
  | nil => exact ⟨[], .nil⟩
  | @snoc labels u v label front allowed moved ih =>
      have known := front.invariant simulates.preserves start
      obtain ⟨steps, earlier⟩ := ih
      obtain ⟨_, more, last⟩ := simulates u label v known allowed moved
      exact ⟨steps ++ more, earlier.append last⟩

end Machine
end Library
