import Mathlib.Data.List.Basic

set_option autoImplicit false

/- Text cut into lines by a separator of two different symbols. The symbols may
arrive in pieces: a line counts as soon as its separator is complete. -/
namespace Library

variable {α : Type*}

/-- Each line followed by the separator. -/
def unlines (a b : α) (lines : List (List α)) : List α :=
  lines.flatMap fun line => line ++ [a, b]

@[simp] theorem unlines_nil (a b : α) : unlines a b [] = [] := rfl

@[simp] theorem unlines_cons (a b : α) (line : List α) (lines : List (List α)) :
    unlines a b (line :: lines) = line ++ a :: b :: unlines a b lines := by
  simp [unlines]

theorem unlines_append (a b : α) (lines more : List (List α)) :
    unlines a b (lines ++ more) = unlines a b lines ++ unlines a b more :=
  List.flatMap_append

/-- A text of lines that ends in a separator ends in a whole line: what is behind the
last separator is nothing, unless it ends in a separator itself. -/
theorem unlines_end (a b : α) (distinct : a ≠ b) (lines : List (List α)) (last front : List α)
    (plain : ∀ before, last ≠ before ++ [a, b])
    (ends : unlines a b lines ++ last = front ++ [a, b]) : last = [] := by
  have split : front ++ [a, b] = (front ++ [a]) ++ [b] := by simp
  rcases List.eq_nil_or_concat last with none | ⟨middle, x, some⟩
  · exact none
  · rw [List.concat_eq_append] at some
    rw [split, some, ← List.append_assoc, List.append_singleton_inj] at ends
    obtain ⟨inner, rfl⟩ := ends
    rcases List.eq_nil_or_concat middle with none | ⟨before, y, more⟩
    · -- the line is the second symbol alone, behind a separator that ends in it
      rw [none, List.append_nil] at inner
      rcases List.eq_nil_or_concat lines with empty | ⟨others, line, filled⟩
      · rw [empty] at inner
        exact absurd inner.symm (by simp)
      · have tail : unlines a x lines = (unlines a x others ++ line ++ [a]) ++ [x] := by
          rw [filled, List.concat_eq_append, unlines_append]
          simp
        rw [tail, List.append_singleton_inj] at inner
        exact absurd inner.2.symm distinct
    · rw [List.concat_eq_append] at more
      rw [more, ← List.append_assoc, List.append_singleton_inj] at inner
      refine absurd ?_ (plain before)
      rw [some, more, inner.2, List.append_assoc, List.singleton_append]

/-- No separator inside. -/
def NoPair (a b : α) (text : List α) : Prop := ∀ front back, text ≠ front ++ a :: b :: back

theorem noPair_nil (a b : α) : NoPair a b [] := by
  intro front back
  simp

theorem noPair_cons_iff (a b x : α) (text : List α) :
    NoPair a b (x :: text) ↔ (∀ back, x :: text ≠ a :: b :: back) ∧ NoPair a b text := by
  constructor
  · intro plain
    refine ⟨fun back => plain [] back, ?_⟩
    intro front back same
    exact plain (x :: front) back (by rw [same, List.cons_append])
  · intro ⟨here, later⟩ front back same
    cases front with
    | nil => exact here back same
    | cons y front =>
        rw [List.cons_append, List.cons.injEq] at same
        exact later front back same.2

/-- A text without the first symbol, in front of another. -/
theorem NoPair.prepend {a b : α} (front : List α) {text : List α} (absent : a ∉ front)
    (plain : NoPair a b text) : NoPair a b (front ++ text) := by
  induction front with
  | nil => exact plain
  | cons x rest ih =>
      rw [List.mem_cons, not_or] at absent
      rw [List.cons_append, noPair_cons_iff]
      refine ⟨?_, ih absent.2⟩
      intro back same
      exact absent.1 (List.cons.inj same).1.symm

theorem NoPair.of_notMem {a b : α} {text : List α} (absent : a ∉ text) : NoPair a b text := by
  have plain := NoPair.prepend text absent (noPair_nil a b)
  rwa [List.append_nil] at plain

/-- Two texts joined by a symbol that is not part of the separator. -/
theorem NoPair.join {a b : α} {front back : List α} (before : NoPair a b front) (c : α)
    (notFirst : c ≠ a) (notSecond : c ≠ b) (behind : NoPair a b back) :
    NoPair a b (front ++ c :: back) := by
  induction front with
  | nil =>
      rw [List.nil_append, noPair_cons_iff]
      refine ⟨?_, behind⟩
      intro rest same
      exact notFirst (List.cons.inj same).1
  | cons x rest ih =>
      obtain ⟨here, later⟩ := (noPair_cons_iff a b x rest).mp before
      rw [List.cons_append, noPair_cons_iff]
      refine ⟨?_, ih later⟩
      intro more same
      cases rest with
      | nil => exact notSecond (List.cons.inj (List.cons.inj same).2).1
      | cons y rest =>
          rw [List.cons_append, List.cons.injEq, List.cons.injEq] at same
          exact here rest (by rw [same.1, same.2.1])

variable [DecidableEq α]

/-- The index of the first separator. -/
def findPair (a b : α) : List α → Option Nat
  | x :: y :: rest =>
      if x = a ∧ y = b then some 0 else (findPair a b (y :: rest)).map (· + 1)
  | _ => none

/-- The complete lines, without their separators, and the unfinished rest. -/
def splitLines (a b : α) : List α → List (List α) × List α
  | [] => ([], [])
  | [x] => ([], [x])
  | x :: y :: rest =>
      if x = a ∧ y = b then
        let later := splitLines a b rest
        ([] :: later.1, later.2)
      else
        let later := splitLines a b (y :: rest)
        match later.1 with
        | [] => ([], x :: later.2)
        | line :: lines => ((x :: line) :: lines, later.2)

variable {a b : α}

/-- The separator behind a text without one is the first. -/
theorem findPair_append (distinct : a ≠ b) (front back : List α) (plain : NoPair a b front) :
    findPair a b (front ++ a :: b :: back) = some front.length := by
  induction front with
  | nil => rw [List.nil_append, findPair, if_pos ⟨rfl, rfl⟩, List.length_nil]
  | cons x rest ih =>
      obtain ⟨here, later⟩ := (noPair_cons_iff a b x rest).mp plain
      have found := ih later
      cases rest with
      | nil =>
          rw [List.nil_append] at found
          rw [List.cons_append, List.nil_append, findPair,
            if_neg (fun both => distinct both.2), found]
          rfl
      | cons y rest =>
          have other : ¬ (x = a ∧ y = b) := by
            intro both
            exact here rest (by rw [both.1, both.2])
          rw [List.cons_append] at found
          rw [List.cons_append, List.cons_append, findPair, if_neg other, found]
          rfl

theorem unlines_splitLines (text : List α) :
    unlines a b (splitLines a b text).1 ++ (splitLines a b text).2 = text := by
  fun_induction splitLines a b text with
  | case1 => rfl
  | case2 x => rfl
  | case3 x y rest same later ih =>
      obtain ⟨rfl, rfl⟩ := same
      simpa using ih
  | case4 x y rest other later none ih => simpa [later, none] using ih
  | case5 x y rest other later line lines some ih => simpa [later, some] using ih

/-- The first separator ends the first line. -/
theorem findPair_eq (text : List α) :
    findPair a b text = ((splitLines a b text).1.head?).map List.length := by
  fun_induction splitLines a b text with
  | case1 => rfl
  | case2 x => rfl
  | case3 x y rest same later ih =>
      rw [findPair, if_pos same]
      rfl
  | case4 x y rest other later none ih =>
      rw [findPair, if_neg other, ih]
      simp [later, none]
  | case5 x y rest other later line lines some ih =>
      rw [findPair, if_neg other, ih]
      simp [later, some]

/-- The text begins with its first line and the separator. -/
theorem splitLines_first (text line : List α) (lines : List (List α))
    (split : (splitLines a b text).1 = line :: lines) :
    text = line ++ a :: b :: (unlines a b lines ++ (splitLines a b text).2) := by
  have whole := unlines_splitLines (a := a) (b := b) text
  rw [split, unlines_cons] at whole
  simpa using whole.symm

/-- No line holds a separator. -/
theorem splitLines_no_pair (text line : List α) (member : line ∈ (splitLines a b text).1)
    (front back : List α) : line ≠ front ++ a :: b :: back := by
  fun_induction splitLines a b text generalizing line front with
  | case1 => cases member
  | case2 x => cases member
  | case3 x y rest same later ih =>
      rcases List.mem_cons.mp member with rfl | behind
      · simp
      · exact ih line behind front
  | case4 x y rest other later none ih => cases member
  | case5 x y rest other later first others some ih =>
      have inside : ∀ l ∈ first :: others, ∀ f, l ≠ f ++ a :: b :: back := by
        rw [← some]
        exact ih
      rcases List.mem_cons.mp member with rfl | behind
      · cases front with
        | nil =>
            -- the separator would start at `x`, and `y` is the second symbol of it
            intro whole
            rw [List.nil_append, List.cons.injEq] at whole
            have begins := splitLines_first (a := a) (b := b) (y :: rest) first others some
            rw [whole.2, List.cons_append, List.cons.injEq] at begins
            exact other ⟨whole.1, begins.1⟩
        | cons z front =>
            intro whole
            rw [List.cons_append, List.cons.injEq] at whole
            exact inside first List.mem_cons_self front whole.2
      · exact inside line (List.mem_cons_of_mem first behind) front

/-- Behind the first separator the text goes on with the other lines. -/
theorem splitLines_drop (text line : List α) (lines : List (List α))
    (split : (splitLines a b text).1 = line :: lines) :
    splitLines a b (text.drop (line.length + 2)) = (lines, (splitLines a b text).2) := by
  fun_induction splitLines a b text generalizing line with
  | case1 => cases split
  | case2 x => cases split
  | case3 x y rest same later ih =>
      cases split
      rfl
  | case4 x y rest other later none ih => cases split
  | case5 x y rest other later first others some ih =>
      cases split
      exact ih first some

/-- A line without a separator in it, in front of a text. -/
theorem splitLines_cons (distinct : a ≠ b) (line rest : List α) (plain : NoPair a b line) :
    splitLines a b (line ++ a :: b :: rest) =
      (line :: (splitLines a b rest).1, (splitLines a b rest).2) := by
  have found := findPair_append distinct line rest plain
  rw [findPair_eq] at found
  obtain ⟨first, head, length⟩ := Option.map_eq_some_iff.mp found
  obtain ⟨lines, split⟩ := List.head?_eq_some_iff.mp head
  have whole := splitLines_first _ first lines split
  obtain ⟨rfl, _⟩ := List.append_inj whole length.symm
  have behind := splitLines_drop _ line lines split
  have dropped : (line ++ a :: b :: rest).drop (line.length + 2) = rest := by simp
  rw [dropped] at behind
  rw [behind]
  exact Prod.ext split rfl

theorem splitLines_unlines (distinct : a ≠ b) (lines : List (List α))
    (plain : ∀ line ∈ lines, NoPair a b line) (rest : List α) :
    splitLines a b (unlines a b lines ++ rest) =
      (lines ++ (splitLines a b rest).1, (splitLines a b rest).2) := by
  induction lines with
  | nil => rfl
  | cons line lines ih =>
      obtain ⟨here, later⟩ := List.forall_mem_cons.mp plain
      rw [unlines_cons, List.append_assoc, List.cons_append, List.cons_append,
        splitLines_cons distinct line _ here, ih later]
      rfl

/-- A separator that is already complete is not changed by what follows. -/
theorem splitLines_append (text more : List α) :
    splitLines a b (text ++ more) =
      ((splitLines a b text).1 ++ (splitLines a b ((splitLines a b text).2 ++ more)).1,
        (splitLines a b ((splitLines a b text).2 ++ more)).2) := by
  fun_induction splitLines a b text with
  | case1 => rfl
  | case2 x => rfl
  | case3 x y rest same later ih =>
      rw [List.cons_append, List.cons_append, splitLines, if_pos same, ih]
      rfl
  | case4 x y rest other later none ih =>
      -- no line is complete, so the unfinished rest is the whole text
      have whole := unlines_splitLines (a := a) (b := b) (y :: rest)
      have unfinished : later.2 = y :: rest := by simpa [later, none] using whole
      simp only [unfinished, List.nil_append]
  | case5 x y rest other later line lines some ih =>
      have split : splitLines a b (y :: (rest ++ more)) =
          (line :: lines ++ (splitLines a b (later.2 ++ more)).1,
            (splitLines a b (later.2 ++ more)).2) := by
        rw [← some]
        exact ih
      rw [List.cons_append, List.cons_append, splitLines, if_neg other, split]
      rfl

/-- A first line that is complete stays the first line. -/
theorem splitLines_append_first (text more line : List α) (rest : List (List α))
    (lines : (splitLines a b text).1 = line :: rest) :
    ∃ later, (splitLines a b (text ++ more)).1 = line :: later := by
  rw [splitLines_append text more, lines]
  exact ⟨_, rfl⟩

/-- The unfinished rest has no complete line. -/
theorem splitLines_rest (text : List α) :
    splitLines a b (splitLines a b text).2 = ([], (splitLines a b text).2) := by
  have again := splitLines_append (a := a) (b := b) text []
  rw [List.append_nil, List.append_nil] at again
  have lines := congrArg Prod.fst again
  have rest := congrArg Prod.snd again
  exact Prod.ext (List.append_cancel_left (lines.symm.trans (List.append_nil _).symm)) rest.symm

/-- The lines that each of successive pieces completes, with `rest` unfinished
before the first of them. -/
def batches (a b : α) (rest : List α) : List (List α) → List (List (List α))
  | [] => []
  | piece :: pieces =>
      (splitLines a b (rest ++ piece)).1 ::
        batches a b (splitLines a b (rest ++ piece)).2 pieces

/-- However the text is cut, the pieces complete its lines in their order. -/
theorem batches_flatten (rest : List α) (pieces : List (List α))
    (open_ : (splitLines a b rest).1 = []) :
    (batches a b rest pieces).flatten = (splitLines a b (rest ++ pieces.flatten)).1 := by
  induction pieces generalizing rest with
  | nil => simpa [batches] using open_.symm
  | cons piece pieces ih =>
      have later := ih (splitLines a b (rest ++ piece)).2 (by rw [splitLines_rest])
      rw [batches, List.flatten_cons, List.flatten_cons, later, ← List.append_assoc,
        splitLines_append (rest ++ piece)]

theorem batches_append (rest : List α) (pieces more : List (List α))
    (open_ : (splitLines a b rest).1 = []) :
    batches a b rest (pieces ++ more) =
      batches a b rest pieces ++
        batches a b (splitLines a b (rest ++ pieces.flatten)).2 more := by
  induction pieces generalizing rest with
  | nil =>
      have whole := unlines_splitLines (a := a) (b := b) rest
      rw [open_, unlines_nil, List.nil_append] at whole
      simp [batches, whole]
  | cons piece pieces ih =>
      have later := ih (splitLines a b (rest ++ piece)).2 (by rw [splitLines_rest])
      rw [List.cons_append, batches, later, batches, List.cons_append, List.flatten_cons,
        ← List.append_assoc rest, splitLines_append (rest ++ piece)]

end Library
