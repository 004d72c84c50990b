import Mathlib.Data.List.Induction
import Mathlib.Data.List.Lex
import Mathlib.Data.List.Sort

set_option autoImplicit false

/- Maps kept as lists in strictly increasing order of their keys, so that equal
maps are equal lists and iteration has one order. -/
namespace Library

structure OrderedMap (κ ν : Type*) [LinearOrder κ] where
  entries : List (κ × ν)
  sorted : entries.Pairwise fun a b => a.1 < b.1
deriving DecidableEq

namespace OrderedMap

variable {κ ν : Type*} [LinearOrder κ]

def lookup (key : κ) : List (κ × ν) → Option ν
  | [] => none
  | entry :: rest => if entry.1 = key then some entry.2 else lookup key rest

def assign (key : κ) (value : ν) : List (κ × ν) → List (κ × ν)
  | [] => [(key, value)]
  | entry :: rest =>
      if key < entry.1 then (key, value) :: entry :: rest
      else if key = entry.1 then (key, value) :: rest
      else entry :: assign key value rest

theorem mem_assign (key : κ) (value : ν) (entries : List (κ × ν)) (entry : κ × ν)
    (member : entry ∈ assign key value entries) : entry = (key, value) ∨ entry ∈ entries := by
  induction entries with
  | nil => exact Or.inl (List.mem_singleton.mp member)
  | cons first rest ih =>
      unfold assign at member
      split at member
      · exact List.mem_cons.mp member
      · split at member
        · rcases List.mem_cons.mp member with same | later
          · exact Or.inl same
          · exact Or.inr (List.mem_cons_of_mem first later)
        · rcases List.mem_cons.mp member with same | later
          · exact Or.inr (same ▸ List.mem_cons_self)
          · rcases ih later with same | old
            · exact Or.inl same
            · exact Or.inr (List.mem_cons_of_mem first old)

theorem assign_sorted (key : κ) (value : ν) (entries : List (κ × ν))
    (sorted : entries.Pairwise fun a b => a.1 < b.1) :
    (assign key value entries).Pairwise fun a b => a.1 < b.1 := by
  induction entries with
  | nil => exact List.pairwise_singleton _ _
  | cons first rest ih =>
      obtain ⟨below, later⟩ := List.pairwise_cons.mp sorted
      unfold assign
      split
      · rename_i less
        apply List.pairwise_cons.mpr
        refine ⟨?_, sorted⟩
        intro entry member
        rcases List.mem_cons.mp member with rfl | old
        · exact less
        · exact lt_trans less (below entry old)
      · split
        · rename_i _ same
          apply List.pairwise_cons.mpr
          refine ⟨?_, later⟩
          intro entry member
          rw [same]
          exact below entry member
        · rename_i notLess different
          apply List.pairwise_cons.mpr
          refine ⟨?_, ih later⟩
          intro entry member
          rcases mem_assign key value rest entry member with rfl | old
          · exact lt_of_le_of_ne (not_lt.mp notLess) (Ne.symm different)
          · exact below entry old

def empty : OrderedMap κ ν := ⟨[], List.Pairwise.nil⟩

def find (m : OrderedMap κ ν) (key : κ) : Option ν := lookup key m.entries

def insert (m : OrderedMap κ ν) (key : κ) (value : ν) : OrderedMap κ ν :=
  ⟨assign key value m.entries, assign_sorted key value m.entries m.sorted⟩

@[simp] theorem find_empty (key : κ) : (empty : OrderedMap κ ν).find key = none := rfl

theorem lookup_assign (key other : κ) (value : ν) (entries : List (κ × ν)) :
    lookup other (assign key value entries) =
      if key = other then some value else lookup other entries := by
  induction entries with
  | nil => rfl
  | cons first rest ih =>
      by_cases same : key = other
      · subst same
        unfold assign
        split
        · simp [lookup]
        · split
          · simp [lookup]
          · rename_i _ different
            simp [lookup, Ne.symm different, ih]
      · rw [if_neg same]
        unfold assign
        split
        · simp [lookup, same]
        · split
          · rename_i _ equal
            simp [lookup, same, ← equal]
          · simp only [lookup, ih, same, if_false]

theorem find_insert_self (m : OrderedMap κ ν) (key : κ) (value : ν) :
    (m.insert key value).find key = some value := by
  rw [find, insert, lookup_assign, if_pos rfl]

theorem find_insert_of_ne (m : OrderedMap κ ν) {key other : κ} (value : ν)
    (different : key ≠ other) : (m.insert key value).find other = m.find other := by
  rw [find, insert, lookup_assign, if_neg different, find]

def erase (m : OrderedMap κ ν) (key : κ) : OrderedMap κ ν :=
  ⟨m.entries.filter fun entry => entry.1 ≠ key, m.sorted.filter _⟩

/-- How many entries have the key, which is also how many `erase` takes out. -/
def count (m : OrderedMap κ ν) (key : κ) : Nat := if (m.find key).isSome then 1 else 0

theorem lookup_filter (key other : κ) (entries : List (κ × ν)) :
    lookup other (entries.filter fun entry => entry.1 ≠ key) =
      if key = other then none else lookup other entries := by
  induction entries with
  | nil => simp [lookup]
  | cons first rest ih =>
      by_cases same : first.1 = key
      · rw [List.filter_cons_of_neg (by simpa using same), ih]
        by_cases wanted : key = other
        · simp [wanted]
        · simp [lookup, same, wanted]
      · rw [List.filter_cons_of_pos (by simpa using same)]
        by_cases wanted : key = other
        · rw [if_pos wanted] at ih ⊢
          have different : first.1 ≠ other := fun equal => same (equal.trans wanted.symm)
          simp only [lookup, different, if_false, ih]
        · rw [if_neg wanted] at ih ⊢
          simp only [lookup, ih]

theorem find_erase_self (m : OrderedMap κ ν) (key : κ) : (m.erase key).find key = none := by
  rw [find, erase, lookup_filter, if_pos rfl]

theorem find_erase_of_ne (m : OrderedMap κ ν) {key other : κ} (different : key ≠ other) :
    (m.erase key).find other = m.find other := by
  rw [find, erase, lookup_filter, if_neg different, find]

def size (m : OrderedMap κ ν) : Nat := m.entries.length

theorem length_assign (key : κ) (value : ν) (entries : List (κ × ν))
    (absent : lookup key entries = none) :
    (assign key value entries).length = entries.length + 1 := by
  induction entries with
  | nil => rfl
  | cons first rest ih =>
      unfold lookup at absent
      split at absent
      · cases absent
      · rename_i different
        have other : key ≠ first.1 := fun same => different same.symm
        simp only [assign, other, ↓reduceIte]
        split
        · rfl
        · rw [List.length_cons, ih absent, List.length_cons]

theorem size_insert (m : OrderedMap κ ν) (key : κ) (value : ν) (absent : m.find key = none) :
    (m.insert key value).size = m.size + 1 :=
  length_assign key value m.entries absent

theorem length_filter (key : κ) (value : ν) (entries : List (κ × ν))
    (sorted : entries.Pairwise fun a b => a.1 < b.1) (found : lookup key entries = some value) :
    (entries.filter fun entry => entry.1 ≠ key).length + 1 = entries.length := by
  induction entries with
  | nil => cases found
  | cons first rest ih =>
      obtain ⟨below, later⟩ := List.pairwise_cons.mp sorted
      unfold lookup at found
      split at found
      · rename_i same
        have others : ∀ e ∈ rest, decide (e.1 ≠ key) = true := by
          intro e member
          rw [decide_eq_true_iff, ← same]
          exact ne_of_gt (below e member)
        rw [List.filter_cons_of_neg (by simpa using same), List.filter_eq_self.mpr others,
          List.length_cons]
      · rename_i different
        rw [List.filter_cons_of_pos (by simpa using different), List.length_cons, ih later found,
          List.length_cons]

theorem size_erase (m : OrderedMap κ ν) (key : κ) (value : ν) (found : m.find key = some value) :
    (m.erase key).size + 1 = m.size :=
  length_filter key value m.entries m.sorted found

theorem lookup_below (key : κ) (entries : List (κ × ν)) (below : ∀ e ∈ entries, key < e.1) :
    lookup key entries = none := by
  induction entries with
  | nil => rfl
  | cons first rest ih =>
      have different : first.1 ≠ key := ne_of_gt (below first List.mem_cons_self)
      rw [lookup, if_neg different]
      exact ih fun e member => below e (List.mem_cons_of_mem first member)

theorem entries_eq_of_lookup (xs ys : List (κ × ν)) (sortedX : xs.Pairwise fun a b => a.1 < b.1)
    (sortedY : ys.Pairwise fun a b => a.1 < b.1) (same : ∀ key, lookup key xs = lookup key ys) :
    xs = ys := by
  induction xs generalizing ys with
  | nil =>
      cases ys with
      | nil => rfl
      | cons y ys => simpa [lookup] using same y.1
  | cons x xs ih =>
      cases ys with
      | nil => simpa [lookup] using same x.1
      | cons y ys =>
          obtain ⟨belowX, laterX⟩ := List.pairwise_cons.mp sortedX
          obtain ⟨belowY, laterY⟩ := List.pairwise_cons.mp sortedY
          have keys : x.1 = y.1 := by
            rcases lt_trichotomy x.1 y.1 with less | equal | greater
            · have missing : lookup x.1 (y :: ys) = none := by
                apply lookup_below
                intro e member
                rcases List.mem_cons.mp member with rfl | old
                · exact less
                · exact lt_trans less (belowY e old)
              simpa [lookup, missing] using (same x.1).trans missing
            · exact equal
            · have missing : lookup y.1 (x :: xs) = none := by
                apply lookup_below
                intro e member
                rcases List.mem_cons.mp member with rfl | old
                · exact greater
                · exact lt_trans greater (belowX e old)
              simpa [lookup, missing] using (same y.1).symm.trans missing
          have values : x.2 = y.2 := by simpa [lookup, keys] using same x.1
          have tails : xs = ys := by
            apply ih ys laterX laterY
            intro key
            by_cases first : x.1 = key
            · rw [lookup_below key xs (first ▸ belowX),
                lookup_below key ys (first ▸ keys ▸ belowY)]
            · have agree := same key
              rwa [lookup, if_neg first, lookup, if_neg (keys ▸ first)] at agree
          rw [tails, Prod.ext keys values]

theorem lookup_eq_some_iff (key : κ) (value : ν) (entries : List (κ × ν))
    (sorted : entries.Pairwise fun a b => a.1 < b.1) :
    lookup key entries = some value ↔ (key, value) ∈ entries := by
  induction entries with
  | nil => simp [lookup]
  | cons first rest ih =>
      obtain ⟨below, later⟩ := List.pairwise_cons.mp sorted
      rw [lookup, List.mem_cons]
      split
      · rename_i same
        have behind : (key, value) ∉ rest := fun member =>
          lt_irrefl key (by simpa [same] using below _ member)
        simp [behind, Prod.ext_iff, same, eq_comm]
      · rename_i different
        have other : (key, value) ≠ first := by
          rintro rfl
          exact different rfl
        rw [ih later]
        simp [other]

theorem find_eq_some_iff (m : OrderedMap κ ν) (key : κ) (value : ν) :
    m.find key = some value ↔ (key, value) ∈ m.entries :=
  lookup_eq_some_iff key value m.entries m.sorted

/-- The first entry, in the order of the keys. -/
def first (m : OrderedMap κ ν) : Option (κ × ν) := m.entries.head?

/-- The entries ahead of the lower bound of `key`. -/
def below (m : OrderedMap κ ν) (key : κ) : List (κ × ν) :=
  m.entries.takeWhile fun entry => entry.1 < key

/-- What is left when they are taken out. -/
def dropBelow (m : OrderedMap κ ν) (key : κ) : OrderedMap κ ν :=
  ⟨m.entries.dropWhile fun entry => entry.1 < key, m.sorted.sublist (List.dropWhile_sublist _)⟩

theorem find_of_first (m : OrderedMap κ ν) (entry : κ × ν) (head : m.first = some entry) :
    m.find entry.1 = some entry.2 := by
  rw [find_eq_some_iff]
  exact List.mem_of_mem_head? head

theorem first_le (m : OrderedMap κ ν) (entry : κ × ν) (head : m.first = some entry) (key : κ)
    (value : ν) (found : m.find key = some value) : entry.1 ≤ key := by
  rw [find_eq_some_iff] at found
  obtain ⟨rest, whole⟩ := List.head?_eq_some_iff.mp head
  have sorted := m.sorted
  rw [whole] at found sorted
  rcases List.mem_cons.mp found with rfl | later
  · exact le_refl _
  · exact le_of_lt ((List.pairwise_cons.mp sorted).1 _ later)

theorem find_of_first_none (m : OrderedMap κ ν) (empty : m.first = none) (key : κ) :
    m.find key = none := by
  rw [first, List.head?_eq_none_iff] at empty
  rw [find, empty]
  rfl

/-- In a sorted list the entries below a key are a front part. -/
theorem takeWhile_below (key : κ) (entries : List (κ × ν))
    (sorted : entries.Pairwise fun a b => a.1 < b.1) (entry : κ × ν) :
    (entry ∈ entries.takeWhile (fun e => e.1 < key) ↔ entry ∈ entries ∧ entry.1 < key) ∧
      (entry ∈ entries.dropWhile (fun e => e.1 < key) ↔ entry ∈ entries ∧ ¬ entry.1 < key) := by
  induction entries with
  | nil => simp
  | cons first rest ih =>
      obtain ⟨above, later⟩ := List.pairwise_cons.mp sorted
      by_cases less : first.1 < key
      · rw [List.takeWhile_cons_of_pos (by simpa using less),
          List.dropWhile_cons_of_pos (by simpa using less), List.mem_cons, (ih later).1,
          (ih later).2, List.mem_cons]
        constructor
        · constructor
          · rintro (rfl | behind)
            · exact ⟨Or.inl rfl, less⟩
            · exact ⟨Or.inr behind.1, behind.2⟩
          · rintro ⟨rfl | member, small⟩
            · exact Or.inl rfl
            · exact Or.inr ⟨member, small⟩
        · constructor
          · rintro ⟨member, large⟩
            exact ⟨Or.inr member, large⟩
          · rintro ⟨rfl | member, large⟩
            · exact absurd less large
            · exact ⟨member, large⟩
      · rw [List.takeWhile_cons_of_neg (by simpa using less),
          List.dropWhile_cons_of_neg (by simpa using less)]
        have none : ∀ e ∈ first :: rest, ¬ e.1 < key := by
          intro e member small
          rcases List.mem_cons.mp member with rfl | behind
          · exact less small
          · exact less (lt_trans (above e behind) small)
        constructor
        · constructor
          · intro member
            cases member
          · rintro ⟨member, small⟩
            exact absurd small (none entry member)
        · exact ⟨fun member => ⟨member, none entry member⟩, fun both => both.1⟩

theorem mem_below (m : OrderedMap κ ν) (key : κ) (entry : κ × ν) :
    entry ∈ m.below key ↔ m.find entry.1 = some entry.2 ∧ entry.1 < key := by
  rw [find_eq_some_iff]
  exact (takeWhile_below key m.entries m.sorted entry).1

theorem find_dropBelow (m : OrderedMap κ ν) (key other : κ) (value : ν) :
    (m.dropBelow key).find other = some value ↔ m.find other = some value ∧ ¬ other < key := by
  rw [find_eq_some_iff, find_eq_some_iff]
  exact (takeWhile_below key m.entries m.sorted (other, value)).2

theorem size_dropBelow (m : OrderedMap κ ν) (key : κ) :
    (m.below key).length + (m.dropBelow key).size = m.size := by
  have whole := congrArg List.length
    (List.takeWhile_append_dropWhile (p := fun entry : κ × ν => decide (entry.1 < key))
      (l := m.entries))
  rwa [List.length_append] at whole

theorem below_sorted (m : OrderedMap κ ν) (key : κ) :
    (m.below key).Pairwise fun a b => a.1 < b.1 :=
  m.sorted.sublist (List.takeWhile_sublist _)

theorem ext_find (m n : OrderedMap κ ν) (same : ∀ key, m.find key = n.find key) : m = n := by
  have equal := entries_eq_of_lookup m.entries n.entries m.sorted n.sorted same
  cases m
  cases n
  cases equal
  rfl

/-- The entries inserted in their order, a later one over an earlier one. -/
def insertAll (m : OrderedMap κ ν) (fields : List (κ × ν)) : OrderedMap κ ν :=
  fields.foldl (fun m field => m.insert field.1 field.2) m

theorem insertAll_concat (m : OrderedMap κ ν) (fields : List (κ × ν)) (last : κ × ν) :
    m.insertAll (fields ++ [last]) = (m.insertAll fields).insert last.1 last.2 := by
  simp only [insertAll, List.foldl_append, List.foldl_cons, List.foldl_nil]

theorem find_insertAll (m : OrderedMap κ ν) (fields : List (κ × ν)) (key : κ) :
    (m.insertAll fields).find key = ((empty.insertAll fields).find key).or (m.find key) := by
  induction fields using List.reverseRecOn with
  | nil => rw [show (empty : OrderedMap κ ν).insertAll [] = empty from rfl, find_empty]; rfl
  | append_singleton fields last ih =>
      rw [insertAll_concat, insertAll_concat]
      by_cases same : last.1 = key
      · rw [same, find_insert_self, find_insert_self]
        rfl
      · rw [find_insert_of_ne _ _ same, find_insert_of_ne _ _ same, ih]

theorem find_insertAll_of_absent (fields : List (κ × ν)) (key : κ)
    (absent : ∀ field ∈ fields, field.1 ≠ key) :
    (empty.insertAll fields).find key = none := by
  induction fields using List.reverseRecOn with
  | nil => exact find_empty key
  | append_singleton fields last ih =>
      have other := absent last (List.mem_append_right _ (List.mem_singleton.mpr rfl))
      rw [insertAll_concat, find_insert_of_ne _ _ other]
      exact ih fun field member => absent field (List.mem_append_left _ member)

theorem find_insertAll_sorted (entries : List (κ × ν))
    (sorted : entries.Pairwise fun a b => a.1 < b.1) (key : κ) :
    (empty.insertAll entries).find key = lookup key entries := by
  induction entries with
  | nil => rfl
  | cons first rest ih =>
      obtain ⟨below, later⟩ := List.pairwise_cons.mp sorted
      change ((empty.insert first.1 first.2).insertAll rest).find key = _
      rw [find_insertAll, ih later, lookup]
      by_cases same : first.1 = key
      · rw [if_pos same, ← same, lookup_below first.1 rest below, find_insert_self]
        rfl
      · rw [if_neg same, find_insert_of_ne _ _ same, find_empty, Option.or_none]

/-- A map written out behind fields with other keys. -/
theorem insertAll_entries (m : OrderedMap κ ν) (fields : List (κ × ν))
    (absent : ∀ field ∈ fields, m.find field.1 = none) :
    empty.insertAll (fields ++ m.entries) = m.insertAll fields := by
  apply ext_find
  intro key
  have split : empty.insertAll (fields ++ m.entries) =
      (empty.insertAll fields).insertAll m.entries := by
    simp only [insertAll, List.foldl_append]
  have whole : (empty.insertAll m.entries).find key = m.find key :=
    find_insertAll_sorted m.entries m.sorted key
  rw [split, find_insertAll, whole, find_insertAll m]
  cases found : m.find key with
  | none => simp
  | some value =>
      have other : ∀ field ∈ fields, field.1 ≠ key := by
        intro field member same
        have none := absent field member
        rw [same, found] at none
        cases none
      rw [find_insertAll_of_absent fields key other]
      rfl

end OrderedMap
end Library
