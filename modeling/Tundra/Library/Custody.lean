import Mathlib.Data.List.Nodup
import Mathlib.Logic.Function.Basic

set_option autoImplicit false

/- A table of handles that one component shares with others: which entries are its own,
and that all the rest is theirs. -/
namespace Library

variable {κ ω : Type*}

structure Custody (table : κ → Option ω) (owned : List (κ × ω)) (foreign : ω → Prop) : Prop where
  distinct : (owned.map Prod.fst).Nodup
  held : ∀ key object, (key, object) ∈ owned → table key = some object
  own : ∀ key object, (key, object) ∈ owned → ¬ foreign object
  rest : ∀ key object, table key = some object → (key, object) ∈ owned ∨ foreign object

namespace Custody

variable {table : κ → Option ω} {owned : List (κ × ω)} {foreign other : ω → Prop}

/-- The others may get to own more objects, as long as these are not the component's. -/
theorem mono (custody : Custody table owned foreign)
    (wider : ∀ object, foreign object → other object)
    (own : ∀ key object, (key, object) ∈ owned → ¬ other object) : Custody table owned other := by
  refine ⟨custody.distinct, custody.held, own, ?_⟩
  intro key object found
  exact (custody.rest key object found).imp_right (wider object)

/-- An object is given away. -/
theorem give {key : κ} {object : ω} (custody : Custody table ((key, object) :: owned) foreign)
    (wider : ∀ object, foreign object → other object) (given : other object)
    (own : ∀ key object, (key, object) ∈ owned → ¬ other object) : Custody table owned other := by
  refine ⟨(List.nodup_cons.mp custody.distinct).2, ?_, own, ?_⟩
  · intro k o member
    exact custody.held k o (List.mem_cons_of_mem _ member)
  · intro k o found
    rcases custody.rest k o found with mine | theirs
    · rcases List.mem_cons.mp mine with same | member
      · cases same
        exact Or.inr given
      · exact Or.inl member
    · exact Or.inr (wider o theirs)

variable [DecidableEq κ]

theorem insert {key : κ} {object : ω} (custody : Custody table owned foreign)
    (free : table key = none) (own : ¬ foreign object) :
    Custody (Function.update table key (some object)) ((key, object) :: owned) foreign := by
  have new : ∀ o, (key, o) ∉ owned := by
    intro o member
    rw [custody.held key o member] at free
    cases free
  refine ⟨?_, ?_, ?_, ?_⟩
  · rw [List.map_cons, List.nodup_cons]
    refine ⟨?_, custody.distinct⟩
    intro member
    obtain ⟨⟨_, o⟩, found, rfl⟩ := List.mem_map.mp member
    exact new o found
  · intro k o member
    rcases List.mem_cons.mp member with same | old
    · cases same
      exact Function.update_self _ _ _
    · rw [Function.update_of_ne (by rintro rfl; exact new o old)]
      exact custody.held k o old
  · intro k o member
    rcases List.mem_cons.mp member with same | old
    · cases same
      exact own
    · exact custody.own k o old
  · intro k o found
    by_cases same : k = key
    · subst same
      rw [Function.update_self] at found
      cases found
      exact Or.inl List.mem_cons_self
    · rw [Function.update_of_ne same] at found
      exact (custody.rest k o found).imp_left (List.mem_cons_of_mem _)

theorem remove {key : κ} {object : ω} (custody : Custody table ((key, object) :: owned) foreign) :
    Custody (Function.update table key none) owned foreign := by
  obtain ⟨single, distinct⟩ := List.nodup_cons.mp custody.distinct
  refine ⟨distinct, ?_, ?_, ?_⟩
  · intro k o member
    rw [Function.update_of_ne]
    · exact custody.held k o (List.mem_cons_of_mem _ member)
    · rintro rfl
      exact single (List.mem_map.mpr ⟨(k, o), member, rfl⟩)
  · intro k o member
    exact custody.own k o (List.mem_cons_of_mem _ member)
  · intro k o found
    by_cases same : k = key
    · subst same
      rw [Function.update_self] at found
      cases found
    · rw [Function.update_of_ne same] at found
      refine (custody.rest k o found).imp_left fun mine => ?_
      rcases List.mem_cons.mp mine with equal | member
      · cases equal
        exact absurd rfl same
      · exact member

/-- The others may put their objects where nothing is, and where theirs are. -/
theorem update_foreign {key : κ} {value : Option ω} (custody : Custody table owned foreign)
    (before : ∀ object, table key = some object → foreign object)
    (behind : ∀ object, value = some object → foreign object) :
    Custody (Function.update table key value) owned foreign := by
  refine ⟨custody.distinct, ?_, custody.own, ?_⟩
  · intro k o member
    rw [Function.update_of_ne]
    · exact custody.held k o member
    · rintro rfl
      exact custody.own k o member (before o (custody.held k o member))
  · intro k o found
    by_cases same : k = key
    · subst same
      rw [Function.update_self] at found
      exact Or.inr (behind o found)
    · rw [Function.update_of_ne same] at found
      exact custody.rest k o found

end Custody
end Library
