import Mathlib.Data.List.Basic

set_option autoImplicit false

/- memcmp and strcmp on the bytes that can be read from a pointer on, and what decides
their results. Both compare unsigned bytes; of the number they return only the sign is
specified, and here it is the difference of the two bytes. -/
namespace Library

/-- The first `n` bytes; the caller sees to it that there are so many. -/
def memcmp : Nat → List UInt8 → List UInt8 → Int
  | n + 1, x :: xs, y :: ys => if x = y then memcmp n xs ys else x.toNat - y.toNat
  | _, _, _ => 0

/-- Up to the first difference or the common terminator. Without either it reads behind the
end of the memory, which is `none`. -/
def strcmp : List UInt8 → List UInt8 → Option Int
  | x :: xs, y :: ys =>
      if x = y then
        if x = 0 then some 0 else strcmp xs ys
      else some (x.toNat - y.toNat)
  | _, _ => none

/-- The number of bytes before the terminator. -/
def strlen : List UInt8 → Option Nat
  | [] => none
  | x :: xs => if x = 0 then some 0 else (strlen xs).map (· + 1)

/-- No terminator comes before the first difference, and there the first is smaller. -/
def Below (xs ys : List UInt8) : Prop :=
  ∃ s x y u v, xs = s ++ x :: u ∧ ys = s ++ y :: v ∧ x < y ∧ 0 ∉ s

/-- The same bytes up to the same terminator. -/
def SameString (xs ys : List UInt8) : Prop :=
  ∃ s u v, xs = s ++ 0 :: u ∧ ys = s ++ 0 :: v ∧ 0 ∉ s

/-- Two lists differ at a place that both have, or one goes on behind the other, or they are
equal. -/
theorem first_difference {α : Type*} [DecidableEq α] (xs ys : List α) :
    (∃ s x y u v, xs = s ++ x :: u ∧ ys = s ++ y :: v ∧ x ≠ y) ∨
      (∃ w, w ≠ [] ∧ ys = xs ++ w) ∨ (∃ w, w ≠ [] ∧ xs = ys ++ w) ∨ xs = ys := by
  induction xs generalizing ys with
  | nil =>
      cases ys with
      | nil => simp
      | cons y ys => exact Or.inr (Or.inl ⟨y :: ys, List.cons_ne_nil _ _, rfl⟩)
  | cons x xs ih =>
      cases ys with
      | nil => exact Or.inr (Or.inr (Or.inl ⟨x :: xs, List.cons_ne_nil _ _, rfl⟩))
      | cons y ys =>
          by_cases same : x = y
          · subst same
            rcases ih ys with ⟨s, a, b, u, v, rfl, rfl, different⟩ | ⟨w, more, rfl⟩ |
              ⟨w, more, rfl⟩ | rfl
            · exact Or.inl ⟨x :: s, a, b, u, v, rfl, rfl, different⟩
            · exact Or.inr (Or.inl ⟨w, more, rfl⟩)
            · exact Or.inr (Or.inr (Or.inl ⟨w, more, rfl⟩))
            · exact Or.inr (Or.inr (Or.inr rfl))
          · exact Or.inl ⟨[], x, y, xs, ys, rfl, rfl, same⟩

/-- A list comes before every longer one that it begins. -/
theorem lt_append {α : Type*} [LT α] (xs : List α) {w : List α} (more : w ≠ []) :
    xs < xs ++ w := by
  cases w with
  | nil => exact absurd rfl more
  | cons y ys =>
      have least : xs ++ [] < xs ++ y :: ys := List.append_left_lt (List.nil_lt_cons y ys)
      rwa [List.append_nil] at least

theorem toNat_sub_neg (x y : UInt8) : (x.toNat : Int) - y.toNat < 0 ↔ x < y := by
  rw [UInt8.lt_iff_toNat_lt]
  omega

theorem toNat_sub_ne (x y : UInt8) (different : x ≠ y) : (x.toNat : Int) - y.toNat ≠ 0 := by
  have apart : x.toNat ≠ y.toNat := fun same => different (UInt8.toNat_inj.mp same)
  omega

section Memcmp

/-- What stands behind the first `n` bytes plays no part. -/
theorem memcmp_take (n k m : Nat) (xs ys : List UInt8) (left : n ≤ k) (right : n ≤ m) :
    memcmp n (xs.take k) (ys.take m) = memcmp n xs ys := by
  induction n generalizing k m xs ys with
  | zero => simp [memcmp]
  | succ n ih =>
      obtain ⟨k, rfl⟩ : ∃ i, k = i + 1 := ⟨k - 1, by omega⟩
      obtain ⟨m, rfl⟩ : ∃ i, m = i + 1 := ⟨m - 1, by omega⟩
      cases xs with
      | nil => simp [memcmp]
      | cons x xs =>
          cases ys with
          | nil => simp [memcmp]
          | cons y ys =>
              rw [List.take_succ_cons, List.take_succ_cons, memcmp, memcmp,
                ih k m xs ys (by omega) (by omega)]

theorem memcmp_eq_zero (n : Nat) (xs ys : List UInt8) (left : n ≤ xs.length)
    (right : n ≤ ys.length) : memcmp n xs ys = 0 ↔ xs.take n = ys.take n := by
  induction n generalizing xs ys with
  | zero => simp [memcmp]
  | succ n ih =>
      cases xs with
      | nil => cases left
      | cons x xs =>
          cases ys with
          | nil => cases right
          | cons y ys =>
              rw [List.length_cons] at left right
              rw [memcmp, List.take_succ_cons, List.take_succ_cons, List.cons.injEq]
              split
              · rename_i equal
                simp only [ih xs ys (by omega) (by omega), equal, true_and]
              · rename_i different
                simp only [toNat_sub_ne x y different, different, false_and]

/-- The comparison of the common length, and then of the lengths, is the lexicographic
order. -/
theorem memcmp_lt_iff (xs ys : List UInt8) :
    (memcmp (min xs.length ys.length) xs ys < 0 ∨
      memcmp (min xs.length ys.length) xs ys = 0 ∧ xs.length < ys.length) ↔ xs < ys := by
  induction xs generalizing ys with
  | nil =>
      cases ys with
      | nil => simp [memcmp]
      | cons y ys => simp [memcmp]
  | cons x xs ih =>
      cases ys with
      | nil => simp [memcmp]
      | cons y ys =>
          rw [List.length_cons, List.length_cons, Nat.succ_min_succ, memcmp,
            List.cons_lt_cons_iff, ← ih ys]
          split
          · rename_i equal
            subst equal
            simp
          · rename_i different
            simp only [toNat_sub_neg, toNat_sub_ne x y different, different, false_and, or_false]

end Memcmp

section Strcmp

theorem below_cons (x y : UInt8) (xs ys : List UInt8) :
    Below (x :: xs) (y :: ys) ↔ x < y ∨ x = y ∧ x ≠ 0 ∧ Below xs ys := by
  constructor
  · rintro ⟨s, a, b, u, v, left, right, less, plain⟩
    cases s with
    | nil =>
        cases left
        cases right
        exact Or.inl less
    | cons c s =>
        cases left
        cases right
        rw [List.mem_cons, not_or] at plain
        exact Or.inr ⟨rfl, Ne.symm plain.1, s, a, b, u, v, rfl, rfl, less, plain.2⟩
  · rintro (less | ⟨rfl, more, s, a, b, u, v, rfl, rfl, less, plain⟩)
    · exact ⟨[], x, y, xs, ys, rfl, rfl, less, List.not_mem_nil⟩
    · refine ⟨x :: s, a, b, u, v, rfl, rfl, less, ?_⟩
      rw [List.mem_cons, not_or]
      exact ⟨Ne.symm more, plain⟩

theorem sameString_cons (x y : UInt8) (xs ys : List UInt8) :
    SameString (x :: xs) (y :: ys) ↔ x = y ∧ (x = 0 ∨ SameString xs ys) := by
  constructor
  · rintro ⟨s, u, v, left, right, plain⟩
    cases s with
    | nil =>
        cases left
        cases right
        exact ⟨rfl, Or.inl rfl⟩
    | cons c s =>
        cases left
        cases right
        exact ⟨rfl, Or.inr ⟨s, u, v, rfl, rfl, fun later => plain (List.mem_cons_of_mem _ later)⟩⟩
  · rintro ⟨rfl, last⟩
    by_cases zero : x = 0
    · subst zero
      exact ⟨[], xs, ys, rfl, rfl, List.not_mem_nil⟩
    · obtain ⟨s, u, v, rfl, rfl, plain⟩ := last.resolve_left zero
      refine ⟨x :: s, u, v, rfl, rfl, ?_⟩
      rw [List.mem_cons, not_or]
      exact ⟨Ne.symm zero, plain⟩

theorem not_below_nil_left (ys : List UInt8) : ¬ Below [] ys := by
  rintro ⟨s, x, y, u, v, left, _⟩
  simp at left

theorem not_below_nil_right (xs : List UInt8) : ¬ Below xs [] := by
  rintro ⟨s, x, y, u, v, _, right, _⟩
  simp at right

theorem not_sameString_nil_left (ys : List UInt8) : ¬ SameString [] ys := by
  rintro ⟨s, u, v, left, _⟩
  simp at left

theorem not_sameString_nil_right (xs : List UInt8) : ¬ SameString xs [] := by
  rintro ⟨s, u, v, _, right, _⟩
  simp at right

/-- Equal bytes in front are passed over, unless a terminator is among them. -/
theorem below_append (s xs ys : List UInt8) :
    Below (s ++ xs) (s ++ ys) ↔ 0 ∉ s ∧ Below xs ys := by
  induction s with
  | nil => simp
  | cons x s ih =>
      rw [List.cons_append, List.cons_append, below_cons, ih, List.mem_cons, not_or]
      have self : ¬ x < x := UInt8.lt_irrefl x
      simp only [self, false_or, true_and, ne_eq, eq_comm, and_assoc]

theorem sameString_append (s xs ys : List UInt8) :
    SameString (s ++ xs) (s ++ ys) ↔ 0 ∈ s ∨ SameString xs ys := by
  induction s with
  | nil => simp
  | cons x s ih =>
      rw [List.cons_append, List.cons_append, sameString_cons, ih, List.mem_cons]
      simp only [true_and, eq_comm, or_assoc]

/-- The three results of strcmp. -/
theorem strcmp_neg (xs ys : List UInt8) :
    (∃ ret, strcmp xs ys = some ret ∧ ret < 0) ↔ Below xs ys := by
  induction xs generalizing ys with
  | nil => simp [strcmp, not_below_nil_left]
  | cons x xs ih =>
      cases ys with
      | nil => simp [strcmp, not_below_nil_right]
      | cons y ys =>
          rw [strcmp, below_cons]
          by_cases same : x = y
          · subst same
            have self : ¬ x < x := UInt8.lt_irrefl x
            by_cases zero : x = 0
            · simp [zero]
            · simp only [zero, ↓reduceIte, ih ys, self, false_or, true_and, ne_eq,
                not_false_eq_true]
          · simp only [same, ↓reduceIte, Option.some.injEq, exists_eq_left', toNat_sub_neg,
              false_and, or_false]

theorem strcmp_zero (xs ys : List UInt8) : strcmp xs ys = some 0 ↔ SameString xs ys := by
  induction xs generalizing ys with
  | nil => simp [strcmp, not_sameString_nil_left]
  | cons x xs ih =>
      cases ys with
      | nil => simp [strcmp, not_sameString_nil_right]
      | cons y ys =>
          rw [strcmp, sameString_cons]
          by_cases same : x = y
          · subst same
            by_cases zero : x = 0
            · simp [zero]
            · simp only [zero, ↓reduceIte, ih ys, false_or, true_and]
          · simp only [same, ↓reduceIte, Option.some.injEq, toNat_sub_ne x y same, false_and]

theorem strcmp_swap (xs ys : List UInt8) : strcmp ys xs = (strcmp xs ys).map (- ·) := by
  induction xs generalizing ys with
  | nil => cases ys <;> rfl
  | cons x xs ih =>
      cases ys with
      | nil => rfl
      | cons y ys =>
          rw [strcmp, strcmp]
          by_cases same : x = y
          · subst same
            by_cases zero : x = 0
            · simp [zero]
            · simp only [zero, ↓reduceIte, ih ys]
          · simp only [same, Ne.symm same, ↓reduceIte, Option.map_some, Int.neg_sub]

theorem strcmp_pos (xs ys : List UInt8) :
    (∃ ret, strcmp xs ys = some ret ∧ 0 < ret) ↔ Below ys xs := by
  rw [← strcmp_neg, strcmp_swap xs ys]
  simp only [Option.map_eq_some_iff]
  constructor
  · rintro ⟨ret, result, positive⟩
    exact ⟨-ret, ⟨ret, result, rfl⟩, by omega⟩
  · rintro ⟨_, ⟨ret, result, rfl⟩, negative⟩
    exact ⟨ret, result, by omega⟩

theorem strlen_eq_some (xs : List UInt8) (n : Nat) (counted : strlen xs = some n) :
    ∃ behind, xs = xs.take n ++ 0 :: behind ∧ 0 ∉ xs.take n := by
  induction xs generalizing n with
  | nil => cases counted
  | cons x xs ih =>
      unfold strlen at counted
      split at counted
      · rename_i zero
        cases counted
        exact ⟨xs, by rw [zero]; rfl, List.not_mem_nil⟩
      · rename_i more
        obtain ⟨k, later, rfl⟩ := Option.map_eq_some_iff.mp counted
        obtain ⟨behind, rest, plain⟩ := ih k later
        refine ⟨behind, ?_, ?_⟩
        · rw [List.take_succ_cons, List.cons_append, ← rest]
        · rw [List.take_succ_cons, List.mem_cons, not_or]
          exact ⟨Ne.symm more, plain⟩

end Strcmp
end Library
