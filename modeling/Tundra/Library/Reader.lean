import Mathlib.Data.List.Basic
import Tundra.Library.Separator

set_option autoImplicit false

/- Reading a text from its front: up to a symbol, by lines, by blocks of lines, and
value after value until nothing is left. -/
namespace Library

variable {α β γ : Type*}

/-- A value taken off the front of a text, and the text behind it. -/
abbrev Reader (α β : Type*) := List α → Option (β × List α)

namespace Reader

/-- Values until the text ends, at most as many as the fuel. -/
def many (read : Reader α β) : Nat → List α → Option (List β)
  | _, [] => some []
  | 0, _ :: _ => none
  | fuel + 1, text => (read text).bind fun (value, rest) =>
      (many read fuel rest).map fun values => value :: values

/-- What is written value by value, each one so that the reader takes it off again, is
read value by value. -/
theorem many_flatMap (read : Reader α γ) (encode : β → List α) (value : β → γ) (xs : List β)
    (fuel : Nat) (enough : xs.length ≤ fuel) (visible : ∀ x ∈ xs, encode x ≠ [])
    (delimited : ∀ front x back, xs = front ++ x :: back →
      read (encode x ++ back.flatMap encode) = some (value x, back.flatMap encode)) :
    many read fuel (xs.flatMap encode) = some (xs.map value) := by
  induction xs generalizing fuel with
  | nil => cases fuel <;> rfl
  | cons x rest ih =>
      obtain ⟨left, rfl⟩ : ∃ left, fuel = left + 1 := ⟨fuel - 1, by simp at enough; omega⟩
      obtain ⟨shown, others⟩ := List.forall_mem_cons.mp visible
      have later := ih left (by simpa using enough) others (fun front y back split =>
        delimited (x :: front) y back (by rw [split, List.cons_append]))
      have here := delimited [] x rest rfl
      rw [List.flatMap_cons]
      cases text : encode x ++ rest.flatMap encode with
      | nil => exact absurd (List.append_eq_nil_iff.mp text).1 shown
      | cons first more =>
          rw [text] at here
          rw [many, here, Option.bind_some]
          dsimp only
          rw [later, Option.map_some, List.map_cons]
          simp

theorem length_le_flatMap (encode : β → List α) (xs : List β)
    (visible : ∀ x ∈ xs, encode x ≠ []) : xs.length ≤ (xs.flatMap encode).length := by
  induction xs with
  | nil => exact Nat.le_refl _
  | cons x rest ih =>
      obtain ⟨shown, others⟩ := List.forall_mem_cons.mp visible
      have later := ih others
      have here := List.length_pos_iff.mpr shown
      rw [List.flatMap_cons, List.length_append, List.length_cons]
      omega

variable [DecidableEq α]

/-- The text before the first such symbol; the symbol itself is left out. -/
def upTo (symbol : α) : Reader α (List α)
  | [] => none
  | x :: rest =>
      if x = symbol then some ([], rest)
      else (upTo symbol rest).map fun (front, back) => (x :: front, back)

theorem upTo_append (symbol : α) (front back : List α) (absent : symbol ∉ front) :
    upTo symbol (front ++ symbol :: back) = some (front, back) := by
  induction front with
  | nil => rw [List.nil_append, upTo, if_pos rfl]
  | cons x rest ih =>
      rw [List.mem_cons, not_or] at absent
      rw [List.cons_append, upTo, if_neg (Ne.symm absent.1), ih absent.2]
      rfl

/-- One symbol. -/
def symbol (x : α) : Reader α Unit
  | [] => none
  | y :: rest => if y = x then some ((), rest) else none

@[simp] theorem symbol_cons (x : α) (rest : List α) : symbol x (x :: rest) = some ((), rest) :=
  if_pos rfl

/-- The text before the first separator. -/
def line (a b : α) : Reader α (List α) := fun text =>
  (findPair a b text).map fun stop => (text.take stop, text.drop (stop + 2))

/-- Lines up to an empty one. -/
def block (a b : α) : Nat → Reader α (List (List α))
  | 0, _ => none
  | fuel + 1, text => (line a b text).bind fun (first, rest) =>
      if first = [] then some ([], rest)
      else (block a b fuel rest).map fun (lines, back) => (first :: lines, back)

variable {a b : α}

theorem line_append (distinct : a ≠ b) (front back : List α) (plain : NoPair a b front) :
    line a b (front ++ a :: b :: back) = some (front, back) := by
  rw [line, findPair_append distinct front back plain, Option.map_some]
  congr 2
  · exact List.take_left
  · rw [← List.drop_drop, List.drop_left]
    rfl

theorem block_unlines (distinct : a ≠ b) (lines : List (List α)) (back : List α) (fuel : Nat)
    (enough : lines.length < fuel) (plain : ∀ l ∈ lines, l ≠ [] ∧ NoPair a b l) :
    block a b fuel (unlines a b lines ++ a :: b :: back) = some (lines, back) := by
  induction lines generalizing fuel with
  | nil =>
      obtain ⟨left, rfl⟩ : ∃ left, fuel = left + 1 := ⟨fuel - 1, by omega⟩
      have here := line_append distinct [] back (noPair_nil a b)
      rw [List.nil_append] at here
      rw [unlines_nil, List.nil_append, block, here, Option.bind_some]
      rfl
  | cons first rest ih =>
      obtain ⟨left, rfl⟩ : ∃ left, fuel = left + 1 := ⟨fuel - 1, by omega⟩
      obtain ⟨⟨some, single⟩, others⟩ := List.forall_mem_cons.mp plain
      have later := ih left (by simpa using enough) others
      have here := line_append distinct first (unlines a b rest ++ a :: b :: back) single
      rw [unlines_cons, List.append_assoc, List.cons_append, List.cons_append, block, here,
        Option.bind_some]
      dsimp only
      rw [if_neg some, later]
      rfl

theorem line_eq_some (text front back : List α) (read : line a b text = some (front, back)) :
    text = front ++ a :: b :: back ∧ NoPair a b front := by
  rw [line, findPair_eq, Option.map_map] at read
  obtain ⟨first, head, same⟩ := Option.map_eq_some_iff.mp read
  obtain ⟨lines, split⟩ := List.head?_eq_some_iff.mp head
  have plain : NoPair a b first :=
    splitLines_no_pair text first (by rw [split]; exact List.mem_cons_self)
  obtain ⟨tail, rfl⟩ : ∃ tail, text = first ++ a :: b :: tail :=
    ⟨_, splitLines_first text first lines split⟩
  rw [Function.comp_apply, Prod.mk.injEq, List.take_left, ← List.drop_drop, List.drop_left] at same
  obtain ⟨rfl, rfl⟩ := same
  exact ⟨rfl, plain⟩

/-- A line that is there is not changed by what follows. -/
theorem line_more (distinct : a ≠ b) (text front back more : List α)
    (read : line a b text = some (front, back)) :
    line a b (text ++ more) = some (front, back ++ more) := by
  obtain ⟨rfl, plain⟩ := line_eq_some text front back read
  rw [List.append_assoc, List.cons_append, List.cons_append]
  exact line_append distinct front (back ++ more) plain

theorem block_more (distinct : a ≠ b) (fuel more : Nat) (text back behind : List α)
    (lines : List (List α)) (read : block a b fuel text = some (lines, back)) :
    block a b (fuel + more) (text ++ behind) = some (lines, back ++ behind) := by
  induction fuel generalizing text lines with
  | zero => cases read
  | succ fuel ih =>
      rw [block] at read
      obtain ⟨⟨first, rest⟩, here, later⟩ := Option.bind_eq_some_iff.mp read
      have longer := line_more distinct text first rest behind here
      rw [Nat.add_right_comm, block, longer, Option.bind_some]
      dsimp only at later ⊢
      split at later
      · rename_i empty
        cases later
        rw [if_pos empty]
      · rename_i some
        obtain ⟨⟨others, left⟩, blocked, same⟩ := Option.map_eq_some_iff.mp later
        cases same
        rw [if_neg some, ih rest others blocked]
        rfl

end Reader
end Library
