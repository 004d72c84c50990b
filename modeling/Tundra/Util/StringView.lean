import Mathlib.Data.List.Basic
import Tundra.Library.CString
import Tundra.Util.Text

set_option autoImplicit false

/- util/String: a pointer and a length, without the bytes. The operators compare so many bytes
as the views have, while compare goes by terminators. -/
namespace Tundra

open Library

/-- The class String. `memory` is what can be read from data_ on, which goes on behind the
view. -/
structure StringView where
  memory : Bytes
  len : Nat
  inside : len ≤ memory.length
  small : len < 2 ^ 31

namespace StringView

/-- String(const char*, int). -/
def ofPointer (memory : Bytes) (len : Nat) (inside : len ≤ memory.length)
    (small : len < 2 ^ 31) : StringView :=
  ⟨memory, len, inside, small⟩

def size (a : StringView) : Nat := a.len

/-- operator==. -/
def eq (lhs rhs : StringView) : Bool :=
  decide (lhs.size = rhs.size) && decide (memcmp lhs.size lhs.memory rhs.memory = 0)

/-- operator!=. -/
def ne (lhs rhs : StringView) : Bool := !lhs.eq rhs

/-- operator<. -/
def lt (lhs rhs : StringView) : Bool :=
  let ret := memcmp (min lhs.size rhs.size) lhs.memory rhs.memory
  decide (ret < 0) || (decide (ret = 0) && decide (lhs.size < rhs.size))

/-- operator<=. -/
def le (lhs rhs : StringView) : Bool := lhs.lt rhs || lhs.eq rhs

/-- operator>. -/
def gt (lhs rhs : StringView) : Bool := !lhs.le rhs

/-- operator>=. -/
def ge (lhs rhs : StringView) : Bool := !lhs.lt rhs

def compare (a rhs : StringView) : Option Int := strcmp a.memory rhs.memory

/-- The bytes of the view. -/
def content (a : StringView) : Bytes := a.memory.take a.len

/-- What stands behind the view. -/
def behind (a : StringView) : Bytes := a.memory.drop a.len

/-- Where compare goes the way of the operators: the views differ at a place that both have,
with no terminator before it; or one is continued by the other, has no terminator, and is
followed by less than the continuation; or they are equal, and hold a terminator or are
followed by the same string. -/
def ComparesRight (a b : StringView) : Prop :=
  (∃ s x y u v, a.content = s ++ x :: u ∧ b.content = s ++ y :: v ∧ x ≠ y ∧ 0 ∉ s) ∨
  (∃ w, w ≠ [] ∧ b.content = a.content ++ w ∧ 0 ∉ a.content ∧ Below a.behind (w ++ b.behind)) ∨
  (∃ w, w ≠ [] ∧ a.content = b.content ++ w ∧ 0 ∉ b.content ∧ Below b.behind (w ++ a.behind)) ∨
  (a.content = b.content ∧ (0 ∈ a.content ∨ SameString a.behind b.behind))

/-- The result of compare has the sign that the operators ask for. -/
def Agrees (a b : StringView) : Prop :=
  ∃ ret, a.compare b = some ret ∧ (ret < 0 ↔ a.lt b = true) ∧ (ret = 0 ↔ a.eq b = true) ∧
    (0 < ret ↔ a.gt b = true)

instance decidableAgrees (a b : StringView) : Decidable (a.Agrees b) :=
  match result : a.compare b with
  | none => isFalse fun ⟨ret, other, _⟩ => by rw [result] at other; cases other
  | some ret =>
      decidable_of_iff ((ret < 0 ↔ a.lt b = true) ∧ (ret = 0 ↔ a.eq b = true) ∧
          (0 < ret ↔ a.gt b = true))
        ⟨fun signs => ⟨ret, result, signs⟩,
          fun ⟨_, other, signs⟩ => Option.some.inj (result.symm.trans other) ▸ signs⟩

section Order

variable (a b c : StringView)

theorem content_length : a.content.length = a.len := by
  rw [content, List.length_take, Nat.min_eq_left a.inside]

theorem memory_eq : a.memory = a.content ++ a.behind := (List.take_append_drop a.len a.memory).symm

theorem eq_iff : a.eq b = true ↔ a.content = b.content := by
  have left := a.inside
  have right := b.inside
  rw [eq, Bool.and_eq_true, decide_eq_true_iff, decide_eq_true_iff, size, size]
  constructor
  · rintro ⟨same, zero⟩
    rw [memcmp_eq_zero a.len _ _ left (by omega)] at zero
    rw [content, content, ← same, zero]
  · intro same
    have lengths : a.len = b.len := by rw [← content_length, ← content_length, same]
    rw [memcmp_eq_zero a.len _ _ left (by omega)]
    refine ⟨lengths, ?_⟩
    rw [content, content, ← lengths] at same
    exact same

/-- operator< is the lexicographic order of the bytes. -/
theorem lt_iff : a.lt b = true ↔ a.content < b.content := by
  rw [← memcmp_lt_iff, content_length, content_length, content, content,
    memcmp_take _ _ _ _ _ (Nat.min_le_left _ _) (Nat.min_le_right _ _)]
  unfold lt size
  rw [Bool.or_eq_true, Bool.and_eq_true, decide_eq_true_iff, decide_eq_true_iff,
    decide_eq_true_iff]

theorem gt_iff : a.gt b = true ↔ b.content < a.content := by
  rw [gt, le, Bool.not_eq_true', Bool.or_eq_false_iff, ← Bool.not_eq_true, ← Bool.not_eq_true,
    lt_iff, eq_iff, List.not_lt, List.le_iff_lt_or_eq]
  constructor
  · rintro ⟨less | same, different⟩
    · exact less
    · exact absurd same.symm different
  · intro less
    refine ⟨Or.inl less, fun same => ?_⟩
    rw [same] at less
    exact List.lt_irrefl _ less

theorem content_total :
    a.content < b.content ∨ a.content = b.content ∨ b.content < a.content := by
  by_cases less : a.content < b.content
  · exact Or.inl less
  · rcases List.le_iff_lt_or_eq.mp (List.not_lt.mp less) with greater | same
    · exact Or.inr (Or.inr greater)
    · exact Or.inr (Or.inl same.symm)

/-- What the sign of compare says about the memory. -/
theorem agrees_iff_memory :
    a.Agrees b ↔ a.content < b.content ∧ Below a.memory b.memory ∨
      b.content < a.content ∧ Below b.memory a.memory ∨
      a.content = b.content ∧ SameString a.memory b.memory := by
  unfold Agrees
  simp only [lt_iff, eq_iff, gt_iff]
  constructor
  · rintro ⟨ret, result, negative, zero, positive⟩
    rcases Int.lt_trichotomy ret 0 with sign | sign | sign
    · exact Or.inl ⟨negative.mp sign, (strcmp_neg _ _).mp ⟨ret, result, sign⟩⟩
    · rw [sign] at result
      exact Or.inr (Or.inr ⟨zero.mp sign, (strcmp_zero _ _).mp result⟩)
    · exact Or.inr (Or.inl ⟨positive.mp sign, (strcmp_pos _ _).mp ⟨ret, result, sign⟩⟩)
  · rintro (⟨less, below⟩ | ⟨less, below⟩ | ⟨same, string⟩)
    · obtain ⟨ret, result, sign⟩ := (strcmp_neg _ _).mpr below
      have different : a.content ≠ b.content := fun same => List.lt_irrefl _ (same ▸ less)
      exact ⟨ret, result, iff_of_true sign less, iff_of_false (by omega) different,
        iff_of_false (by omega) (List.lt_asymm less)⟩
    · obtain ⟨ret, result, sign⟩ := (strcmp_pos _ _).mpr below
      have different : a.content ≠ b.content := fun same => List.lt_irrefl _ (same ▸ less)
      exact ⟨ret, result, iff_of_false (by omega) (List.lt_asymm less),
        iff_of_false (by omega) different, iff_of_true sign less⟩
    · have self : ¬ b.content < b.content := List.lt_irrefl _
      rw [same]
      exact ⟨0, (strcmp_zero _ _).mpr string, iff_of_false (by omega) self, iff_of_true rfl rfl,
        iff_of_false (by omega) self⟩

theorem agrees_of_comparesRight (fit : a.ComparesRight b) : a.Agrees b := by
  rw [agrees_iff_memory, memory_eq a, memory_eq b]
  rcases fit with ⟨s, x, y, u, v, left, right, different, plain⟩ |
    ⟨w, more, right, plain, below⟩ | ⟨w, more, left, plain, below⟩ | ⟨same, string⟩
  · rw [left, right, List.append_assoc, List.append_assoc, below_append, below_append,
      List.cons_append, List.cons_append, below_cons, below_cons]
    rcases UInt8.lt_or_lt_of_ne different with less | less
    · refine Or.inl ⟨List.append_left_lt ?_, plain, Or.inl less⟩
      exact List.cons_lt_cons_iff.mpr (Or.inl less)
    · refine Or.inr (Or.inl ⟨List.append_left_lt ?_, plain, Or.inl less⟩)
      exact List.cons_lt_cons_iff.mpr (Or.inl less)
  · rw [right, List.append_assoc, below_append]
    exact Or.inl ⟨lt_append a.content more, plain, below⟩
  · rw [left, List.append_assoc]
    refine Or.inr (Or.inl ⟨lt_append b.content more, ?_⟩)
    exact (below_append _ _ _).mpr ⟨plain, below⟩
  · rw [same] at string ⊢
    exact Or.inr (Or.inr ⟨rfl, (sameString_append _ _ _).mpr string⟩)

theorem comparesRight_of_agrees (agrees : a.Agrees b) : a.ComparesRight b := by
  rw [agrees_iff_memory, memory_eq a, memory_eq b] at agrees
  rcases first_difference a.content b.content with ⟨s, x, y, u, v, left, right, different⟩ |
    ⟨w, more, right⟩ | ⟨w, more, left⟩ | same
  · refine Or.inl ⟨s, x, y, u, v, left, right, different, ?_⟩
    rw [left, right, List.append_assoc, List.append_assoc, below_append, below_append] at agrees
    rcases agrees with ⟨_, plain, _⟩ | ⟨_, plain, _⟩ | ⟨same, _⟩
    · exact plain
    · exact plain
    · exact absurd (List.cons.inj (List.append_cancel_left same)).1 different
  · have less := lt_append a.content more
    rw [right, List.append_assoc] at agrees
    rcases agrees with ⟨_, below⟩ | ⟨greater, _⟩ | ⟨same, _⟩
    · exact Or.inr (Or.inl ⟨w, more, right, (below_append _ _ _).mp below⟩)
    · exact absurd greater (List.lt_asymm less)
    · rw [← same] at less
      exact absurd less (List.lt_irrefl _)
  · have less := lt_append b.content more
    rw [left, List.append_assoc] at agrees
    rcases agrees with ⟨greater, _⟩ | ⟨_, below⟩ | ⟨same, _⟩
    · exact absurd greater (List.lt_asymm less)
    · exact Or.inr (Or.inr (Or.inl ⟨w, more, left, (below_append _ _ _).mp below⟩))
    · rw [same] at less
      exact absurd less (List.lt_irrefl _)
  · rw [same] at agrees
    rcases agrees with ⟨less, _⟩ | ⟨less, _⟩ | ⟨_, string⟩
    · exact absurd less (List.lt_irrefl _)
    · exact absurd less (List.lt_irrefl _)
    · refine Or.inr (Or.inr (Or.inr ⟨same, ?_⟩))
      rw [same]
      exact (sameString_append _ _ _).mp string

/-- The operators make a strict total order, the lexicographic one of the unsigned bytes in
which a proper prefix comes first. compare goes along with it exactly for the views that it
compares right. -/
theorem string_order_iff :
    (a.lt b = true ↔ a.content < b.content) ∧ a.lt a = false ∧
    (a.lt b = true → b.lt c = true → a.lt c = true) ∧
    (a.lt b = true ∨ a.eq b = true ∨ b.lt a = true) ∧
    (a.eq b = true ↔ a.lt b = false ∧ b.lt a = false) ∧ a.ne b = (!a.eq b) ∧
    (a.le b = true ↔ a.lt b = true ∨ a.eq b = true) ∧ a.gt b = b.lt a ∧ a.ge b = b.le a ∧
    (a.Agrees b ↔ a.ComparesRight b) := by
  have total := content_total a b
  refine ⟨lt_iff a b, ?_, ?_, ?_, ?_, rfl, ?_, ?_, ?_, ?_⟩
  · rw [← Bool.not_eq_true, lt_iff]
    exact List.lt_irrefl _
  · rw [lt_iff, lt_iff, lt_iff]
    exact fun first second => List.lt_trans first second
  · rw [lt_iff, eq_iff, lt_iff]
    exact total
  · rw [← Bool.not_eq_true, ← Bool.not_eq_true, eq_iff, lt_iff, lt_iff]
    constructor
    · intro same
      rw [same]
      exact ⟨List.lt_irrefl _, List.lt_irrefl _⟩
    · rintro ⟨less, greater⟩
      exact (total.resolve_left less).resolve_right greater
  · rw [le, Bool.or_eq_true]
  · rw [Bool.eq_iff_iff, gt_iff, lt_iff]
  · rw [Bool.eq_iff_iff, ge, Bool.not_eq_true', ← Bool.not_eq_true, lt_iff, le, Bool.or_eq_true,
      lt_iff, eq_iff, List.not_lt, List.le_iff_lt_or_eq]
  · exact ⟨comparesRight_of_agrees a b, agrees_of_comparesRight a b⟩

theorem behind_of_strlen (counted : strlen a.memory = some a.len) :
    0 ∉ a.content ∧ ∃ u, a.behind = 0 :: u := by
  obtain ⟨u, split, plain⟩ := strlen_eq_some a.memory a.len counted
  exact ⟨plain, u, List.append_cancel_left ((memory_eq a).symm.trans split)⟩

/-- Two views whose lengths have been counted by strlen are compared right. -/
theorem comparesRight_of_strlen (left : strlen a.memory = some a.len)
    (right : strlen b.memory = some b.len) : a.ComparesRight b := by
  obtain ⟨plain, u, ends⟩ := behind_of_strlen a left
  obtain ⟨plain', u', ends'⟩ := behind_of_strlen b right
  -- a byte of one view comes where the other has its terminator
  have below (w behind rest : Bytes) (more : w ≠ []) (inside : 0 ∉ w) :
      Below (0 :: rest) (w ++ behind) := by
    cases w with
    | nil => exact absurd rfl more
    | cons y w =>
        rw [List.cons_append, below_cons]
        have other : y ≠ 0 := fun zero => inside (zero ▸ List.mem_cons_self)
        exact Or.inl (UInt8.pos_iff_ne_zero.mpr other)
  rcases first_difference a.content b.content with ⟨s, x, y, v, v', same, same', different⟩ |
    ⟨w, more, longer⟩ | ⟨w, more, longer⟩ | same
  · refine Or.inl ⟨s, x, y, v, v', same, same', different, fun member => plain ?_⟩
    rw [same]
    exact List.mem_append_left _ member
  · refine Or.inr (Or.inl ⟨w, more, longer, plain, ?_⟩)
    rw [longer, List.mem_append, not_or] at plain'
    rw [ends]
    exact below w b.behind u more plain'.2
  · refine Or.inr (Or.inr (Or.inl ⟨w, more, longer, plain', ?_⟩))
    rw [longer, List.mem_append, not_or] at plain
    rw [ends']
    exact below w a.behind u' more plain.2
  · refine Or.inr (Or.inr (Or.inr ⟨same, Or.inr ?_⟩))
    rw [ends, ends', sameString_cons]
    exact ⟨rfl, Or.inl rfl⟩

end Order

/-- Two views of the letter A, of which one is followed by another letter, are equal, and
compare tells them apart. Two views that differ behind a terminator are told apart, and
compare takes them for equal. -/
theorem string_order_fails :
    (∃ a b : StringView, a.memory = ascii "AB\x00" ∧ b.memory = ascii "A\x00" ∧ a.eq b = true ∧
      a.compare b = some 66 ∧ ¬ a.Agrees b) ∧
    ∃ a b : StringView, a.memory = ascii "A\x00B\x00" ∧ b.memory = ascii "A\x00C\x00" ∧
      a.lt b = true ∧ a.compare b = some 0 ∧ ¬ a.Agrees b := by
  constructor
  · exact ⟨ofPointer (ascii "AB\x00") 1 (by decide) (by decide),
      ofPointer (ascii "A\x00") 1 (by decide) (by decide), rfl, rfl,
      by decide +kernel, by decide +kernel, by decide +kernel⟩
  · exact ⟨ofPointer (ascii "A\x00B\x00") 3 (by decide) (by decide),
      ofPointer (ascii "A\x00C\x00") 3 (by decide) (by decide), rfl, rfl,
      by decide +kernel, by decide +kernel, by decide +kernel⟩

end StringView
end Tundra
