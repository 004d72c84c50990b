import Mathlib.Data.List.Basic
import Mathlib.Logic.Function.Basic

set_option autoImplicit false

/- A vector of slots, each with one owner that knows the index of its slot. A slot is
given up by moving the last one into its place, so that there are no gaps. -/
namespace Library

variable {α κ : Type*}

/-- Each owner present has a slot of its own, and there are no other slots. -/
structure SlotTable (slots : List α) (present : κ → Prop) (index : κ → Nat) : Prop where
  inside : ∀ c, present c → index c < slots.length
  distinct : ∀ c d, present c → present d → index c = index d → c = d
  covered : ∀ i, i < slots.length → ∃ c, present c ∧ index c = i

namespace SlotTable

variable {slots : List α} {present other : κ → Prop} {index place : κ → Nat}

theorem empty (none : ∀ c, ¬ present c) : SlotTable ([] : List α) present index where
  inside c here := absurd here (none c)
  distinct c _ here := absurd here (none c)
  covered i below := absurd below (Nat.not_lt_zero i)

/-- Only the owners present and their indices count. -/
theorem congr (table : SlotTable slots present index) (same : ∀ c, other c ↔ present c)
    (placed : ∀ c, present c → place c = index c) : SlotTable slots other place where
  inside c here := by
    rw [placed c ((same c).mp here)]
    exact table.inside c ((same c).mp here)
  distinct c d left right equal := by
    rw [placed c ((same c).mp left), placed d ((same d).mp right)] at equal
    exact table.distinct c d ((same c).mp left) ((same d).mp right) equal
  covered i below := by
    obtain ⟨c, here, at_⟩ := table.covered i below
    exact ⟨c, (same c).mpr here, (placed c here).trans at_⟩

/-- What the slots hold does not count. -/
theorem of_length {β : Type*} {slots' : List β} (table : SlotTable slots present index)
    (length : slots'.length = slots.length) : SlotTable slots' present index where
  inside c here := by
    rw [length]
    exact table.inside c here
  distinct := table.distinct
  covered i below := by
    rw [length] at below
    exact table.covered i below

theorem set (table : SlotTable slots present index) (i : Nat) (slot : α) :
    SlotTable (slots.set i slot) present index :=
  table.of_length List.length_set

/-- Writing one owner's slot leaves the others alone. -/
theorem set_slot (table : SlotTable slots present index) (c d : κ) (here : present c)
    (there : present d) (different : d ≠ c) (slot : α) :
    (slots.set (index c) slot)[index d]? = slots[index d]? := by
  apply List.getElem?_set_ne
  intro equal
  exact different (table.distinct d c there here equal.symm)

/-- The owner of the last slot gives it up. -/
theorem pop (table : SlotTable slots present index) (c : κ) (here : present c)
    (last : index c + 1 = slots.length) :
    SlotTable slots.dropLast (fun d => present d ∧ d ≠ c) index := by
  constructor
  · intro d there
    have bound := table.inside d there.1
    have different : index d ≠ index c := fun equal =>
      there.2 (table.distinct d c there.1 here equal)
    rw [List.length_dropLast]
    omega
  · intro d e left right equal
    exact table.distinct d e left.1 right.1 equal
  · intro i below
    rw [List.length_dropLast] at below
    obtain ⟨d, there, at_⟩ := table.covered i (by omega)
    refine ⟨d, ⟨there, ?_⟩, at_⟩
    rintro rfl
    omega

/-- Giving up the last slot leaves the others alone. -/
theorem pop_slot (table : SlotTable slots present index) (c d : κ) (here : present c)
    (there : present d) (different : d ≠ c) (last : index c + 1 = slots.length) :
    slots.dropLast[index d]? = slots[index d]? := by
  have inside := table.inside d there
  have apart : index d ≠ index c := fun equal =>
    different (table.distinct d c there here equal)
  rw [List.dropLast_eq_take, List.getElem?_take_of_lt (by omega)]

variable [DecidableEq κ]

/-- A new owner gets a slot behind all others. -/
theorem push (table : SlotTable slots present index) (c : κ) (absent : ¬ present c) (slot : α) :
    SlotTable (slots ++ [slot]) (fun d => d = c ∨ present d)
      (Function.update index c slots.length) := by
  have kept : ∀ d, present d → Function.update index c slots.length d = index d := by
    intro d here
    apply Function.update_of_ne
    rintro rfl
    exact absent here
  have new : Function.update index c slots.length c = slots.length := Function.update_self ..
  constructor
  · intro d here
    rw [List.length_append, List.length_singleton]
    rcases here with rfl | here
    · rw [new]
      omega
    · rw [kept d here]
      have := table.inside d here
      omega
  · intro d e left right equal
    rcases left with rfl | left
    · rcases right with rfl | right
      · rfl
      · rw [new, kept e right] at equal
        have := table.inside e right
        omega
    · rcases right with rfl | right
      · rw [new, kept d left] at equal
        have := table.inside d left
        omega
      · rw [kept d left, kept e right] at equal
        exact table.distinct d e left right equal
  · intro i below
    rw [List.length_append, List.length_singleton] at below
    by_cases last : i = slots.length
    · exact ⟨c, Or.inl rfl, by rw [new, last]⟩
    · obtain ⟨d, here, at_⟩ := table.covered i (by omega)
      exact ⟨d, Or.inr here, by rw [kept d here, at_]⟩

/-- Another owner gives its slot up, and the last owner moves into it. -/
theorem swapPop (table : SlotTable slots present index) (c m : κ) (here : present c)
    (moved : present m) (last : index m + 1 = slots.length) (different : m ≠ c) (back : α) :
    SlotTable (slots.set (index c) back).dropLast (fun d => present d ∧ d ≠ c)
      (Function.update index m (index c)) := by
  have gap : index c ≠ index m := fun equal =>
    different (table.distinct m c moved here equal.symm)
  have bound := table.inside c here
  have size : (slots.set (index c) back).dropLast.length = slots.length - 1 := by
    rw [List.length_dropLast, List.length_set]
  have new : Function.update index m (index c) m = index c := Function.update_self ..
  have kept : ∀ d, d ≠ m → Function.update index m (index c) d = index d := fun d other =>
    Function.update_of_ne other ..
  constructor
  · intro d there
    rw [size]
    by_cases same : d = m
    · rw [same, new]
      omega
    · have inside := table.inside d there.1
      have apart : index d ≠ index m := fun equal =>
        same (table.distinct d m there.1 moved equal)
      rw [kept d same]
      omega
  · intro d e left right equal
    by_cases first : d = m
    · by_cases second : e = m
      · rw [first, second]
      · rw [first, new, kept e second] at equal
        exact absurd (table.distinct e c right.1 here equal.symm) right.2
    · by_cases second : e = m
      · rw [second, new, kept d first] at equal
        exact absurd (table.distinct d c left.1 here equal) left.2
      · rw [kept d first, kept e second] at equal
        exact table.distinct d e left.1 right.1 equal
  · intro i below
    rw [size] at below
    by_cases freed : i = index c
    · exact ⟨m, ⟨moved, different⟩, by rw [new, freed]⟩
    · obtain ⟨d, there, at_⟩ := table.covered i (by omega)
      have other : d ≠ m := by
        rintro rfl
        omega
      refine ⟨d, ⟨there, ?_⟩, by rw [kept d other, at_]⟩
      rintro rfl
      exact freed at_.symm

/-- The slot that moves keeps its content, and so do those that stay. -/
theorem swapPop_slot (table : SlotTable slots present index) (c m d : κ) (here : present c)
    (moved : present m) (last : index m + 1 = slots.length) (there : present d)
    (different : d ≠ c) (apart : m ≠ c) (back : α) (content : slots[index m]? = some back) :
    (slots.set (index c) back).dropLast[Function.update index m (index c) d]? =
      slots[index d]? := by
  have gap : index c ≠ index m := fun equal => apart (table.distinct m c moved here equal.symm)
  have bound := table.inside c here
  rw [List.dropLast_eq_take, List.length_set]
  by_cases same : d = m
  · subst same
    rw [Function.update_self, List.getElem?_take_of_lt (by omega), List.getElem?_set_self bound,
      content]
  · have inside := table.inside d there
    have other : index d ≠ index m := fun equal => same (table.distinct d m there moved equal)
    rw [Function.update_of_ne same, List.getElem?_take_of_lt (by omega)]
    exact table.set_slot c d here there different back

end SlotTable
end Library
