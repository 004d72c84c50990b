import Mathlib.Data.List.Basic
import Tundra.Net.Acceptor

set_option autoImplicit false

/- When Acceptor::handleRead gets a connection out of the way although no descriptor is
left, and what the other threads must not do for it. -/
namespace Tundra.Acceptor

open Library

section

variable {limit : Nat} (callback : Bool) {s : State}

/-- idleFd_ has been given up, and is not yet open again. -/
def Place.between : Place → Bool
  | .released | .taken _ | .turnedAway => true
  | .outside | .accepted _ _ | .exhausted | .destroyed => false

def expected : Result → Bool
  | .ok _ | .error .EMFILE | .error .EAGAIN => true
  | .error .another => false

/-- Nobody else opens a descriptor while idleFd_ is given up, and accept and open fail for
no other reason than that no number is free or nothing waits. -/
def Considerate (s : State) : Label → Prop
  | .openOther _ _ => s.place.between = false
  | .accept result | .acceptIdle result | .openIdle result => expected result = true
  | .arrive | .dispatch | .closeIdle | .closeTaken | .destroy | .closeOther _ => True

instance (s : State) : (label : Label) → Decidable (Considerate s label)
  | .openOther _ _ => inferInstanceAs (Decidable (s.place.between = false))
  | .accept result | .acceptIdle result | .openIdle result =>
      inferInstanceAs (Decidable (expected result = true))
  | .arrive | .dispatch | .closeIdle | .closeTaken | .destroy | .closeOther _ =>
      inferInstanceAs (Decidable True)

variable (limit) in
def considerate : Machine State Label := (machine limit callback).restrict Considerate

instance (s : State) (label : Label) : Decidable ((considerate limit callback).enabled s label) :=
  inferInstanceAs (Decidable (Enabled limit s label ∧ Considerate s label))

variable (limit) in
/-- More than `n` connections have met their fate, or the call of handleRead that is under
way will see to it. -/
def Serving (n : Nat) (s : State) : Prop :=
  n < s.fates.length ∨ n = s.fates.length ∧
    match s.place with
    | .accepted _ _ => True
    | .exhausted => s.idleFd ≠ none ∧ s.backlog ≠ []
    | .released => (∃ fd, Free limit s fd) ∧ s.backlog ≠ []
    | .taken peer => peer ≠ none
    | .outside | .turnedAway | .destroyed => False

/-- A number stays free when another descriptor is closed. -/
theorem Free.close {fd : Nat} (free : Free limit s fd) (number : Option Nat) :
    Free limit { s with table := Acceptor.close s.table number } fd := by
  refine ⟨free.1, ?_⟩
  cases number with
  | none => exact free.2
  | some n =>
      change Function.update s.table n none fd = none
      rw [Function.update_apply, free.2, ite_self]

theorem next_fates (s t : State) (label : Label) (moved : next callback s label = some t) :
    ∃ more, t.fates = s.fates ++ more := by
  have same : ∃ more, s.fates = s.fates ++ more := ⟨[], (List.append_nil _).symm⟩
  cases label with
  | arrive | closeIdle | destroy | openOther | closeOther =>
      cases moved
      exact same
  | accept result | acceptIdle result =>
      cases result with
      | ok fd =>
          simp only [next] at moved
          split at moved
          · cases moved
          · cases moved
            exact same
      | error errno =>
          cases errno <;> cases moved <;> exact same
  | openIdle result =>
      cases result <;> cases moved <;> exact same
  | dispatch =>
      simp only [next] at moved
      split at moved
      · split at moved
        · cases moved
          exact ⟨_, rfl⟩
        · cases moved
          exact ⟨_, rfl⟩
      · cases moved
  | closeTaken =>
      simp only [next] at moved
      split at moved
      · cases moved
        exact ⟨_, rfl⟩
      · cases moved

theorem next_serving (n : Nat) (t : State) (label : Label) (books : Books limit s)
    (serving : Serving limit n s) (enabled : Enabled limit s label)
    (considerate : Considerate s label) (moved : next callback s label = some t) :
    Serving limit n t := by
  rcases serving with more | ⟨same, at_⟩
  · obtain ⟨new, grown⟩ := next_fates callback s t label moved
    left
    rw [grown, List.length_append]
    omega
  obtain ⟨table, acceptFd, idleFd, place, backlog, arrived, fates⟩ := s
  cases label with
  | arrive =>
      cases moved
      refine Or.inr ⟨same, ?_⟩
      cases place with
      | exhausted | released => exact ⟨at_.1, List.append_ne_nil_of_left_ne_nil at_.2 _⟩
      | outside | accepted | taken | turnedAway | destroyed => exact at_
  | accept result =>
      cases enabled.1
      cases at_
  | dispatch =>
      cases place with
      | accepted connfd peer =>
          left
          cases callback <;> cases moved <;> simp [same]
      | outside | exhausted | released | taken | turnedAway | destroyed => cases enabled
  | closeIdle =>
      cases enabled
      cases moved
      obtain ⟨fd, rfl⟩ := Option.ne_none_iff_exists'.mp at_.1
      exact Or.inr ⟨same, ⟨fd, books.limited fd rfl, Function.update_self _ _ _⟩, at_.2⟩
  | acceptIdle result =>
      obtain ⟨rfl, answer⟩ := enabled
      obtain ⟨⟨fd, free⟩, waits⟩ := at_
      cases result with
      | ok number =>
          obtain ⟨peer, rest, rfl⟩ := List.exists_cons_of_ne_nil waits
          cases moved
          exact Or.inr ⟨same, by simp⟩
      | error errno =>
          cases errno with
          | EMFILE => exact absurd free.2 (answer fd free.1)
          | EAGAIN => exact absurd answer waits
          | another => cases considerate
  | closeTaken =>
      cases place with
      | taken peer =>
          obtain ⟨peer, rfl⟩ := Option.ne_none_iff_exists'.mp at_
          cases moved
          left
          simp [same]
      | outside | accepted | exhausted | released | turnedAway | destroyed => cases enabled
  | openIdle result =>
      cases enabled.1
      cases at_
  | destroy =>
      cases enabled
      cases at_
  | openOther owner fd =>
      cases moved
      refine Or.inr ⟨same, ?_⟩
      cases place with
      | released | taken | turnedAway => cases considerate
      | outside | accepted | exhausted | destroyed => exact at_
  | closeOther fd =>
      cases moved
      refine Or.inr ⟨same, ?_⟩
      cases place with
      | released =>
          exact ⟨at_.1.imp fun _ free => free.close (some fd), at_.2⟩
      | outside | accepted | exhausted | taken | turnedAway | destroyed => exact at_

/-- A call of handleRead that nothing comes in the way of takes a connection. -/
theorem call_serves (books : Books limit s) (waits : s.backlog ≠ [])
    (able : s.idleFd ≠ none ∨ ∃ fd, Free limit s fd) (result : Result) (labels : List Label)
    (t : State) (run : (considerate limit callback).Run s (.accept result :: labels) t)
    (outside : t.place = .outside) : s.fates.length < t.fates.length := by
  obtain ⟨u, ⟨enabled, considerate⟩, moved, rest⟩ := run.uncons
  have kept := books_preserves callback s _ u books enabled moved
  have keeps : (Acceptor.considerate limit callback).Preserves
      fun u => Books limit u ∧ Serving limit s.fates.length u := by
    intro u label v inv enabled moved
    exact ⟨books_preserves callback u label v inv.1 enabled.1 moved,
      next_serving callback _ v label inv.1 inv.2 enabled.1 enabled.2 moved⟩
  have begun : Serving limit s.fates.length u := by
    cases result with
    | ok fd =>
        obtain ⟨peer, rest, backlog⟩ := List.exists_cons_of_ne_nil waits
        change next callback s (.accept (.ok fd)) = some u at moved
        rw [next, backlog] at moved
        cases moved
        exact Or.inr ⟨rfl, trivial⟩
    | error errno =>
        cases errno with
        | EMFILE =>
            cases moved
            refine Or.inr ⟨rfl, able.resolve_right ?_, waits⟩
            rintro ⟨fd, small, free⟩
            exact enabled.2 fd small free
        | EAGAIN => exact absurd enabled.2 waits
        | another => cases considerate
  have ended := (rest.invariant keeps ⟨kept, begun⟩).2
  rcases ended with more | ⟨_, at_⟩
  · exact more
  · rw [outside] at at_
    cases at_

/-- A call of handleRead for which there is no number and no idle descriptor. -/
def failedCall : List Label :=
  [.accept (.error .EMFILE), .closeIdle, .acceptIdle (.error .EMFILE), .closeTaken,
    .openIdle (.error .EMFILE)]

theorem failedCall_run (outside : s.place = .outside) (lost : s.idleFd = none)
    (full : Full limit s) : (considerate limit callback).Run s failedCall s := by
  obtain ⟨table, acceptFd, idleFd, place, backlog, arrived, fates⟩ := s
  cases outside
  cases lost
  refine .cons ⟨⟨rfl, full⟩, rfl⟩ rfl ?_
  refine .cons ⟨rfl, trivial⟩ rfl ?_
  refine .cons ⟨⟨rfl, full⟩, rfl⟩ rfl ?_
  refine .cons ⟨rfl, trivial⟩ rfl ?_
  refine .single ⟨⟨rfl, full⟩, rfl⟩ ?_
  change some (State.mk (close (close table none) none) _ none _ _ _ (fates ++ [])) = _
  rw [List.append_nil]
  rfl

/-- In every reachable state in which a connection waits: every call of handleRead, with
no other open while it has given up idleFd_, hands a connection over or turns one away,
exactly when idleFd_ is a descriptor or some number is free. -/
theorem handleRead_serves_iff (start : State) (initial : Initial limit start)
    (history : List Label) (s : State) (run : (machine limit callback).Run start history s)
    (outside : s.place = .outside) (waits : s.backlog ≠ []) :
    (∀ result labels t, (considerate limit callback).Run s (.accept result :: labels) t →
        t.place = .outside → s.fates.length < t.fates.length) ↔
      s.idleFd ≠ none ∨ ∃ fd, Free limit s fd := by
  have books := run.invariant (books_preserves callback) initial.books
  constructor
  · intro serves
    by_contra stuck
    obtain ⟨lost, none⟩ := not_or.mp stuck
    have full : Full limit s := fun fd small free => none ⟨fd, small, free⟩
    have failed := failedCall_run callback outside (not_not.mp lost) full
    exact absurd (serves _ _ s failed outside) (Nat.lt_irrefl _)
  · intro able result labels t called ended
    exact call_serves callback books waits able result labels t called ended

variable (limit) in
/-- idleFd_ is a descriptor, or the number that it has given up is still free. -/
def Kept (s : State) : Prop :=
  match s.place with
  | .outside | .accepted _ _ | .exhausted | .taken (some _) => s.idleFd ≠ none
  | .released | .taken none | .turnedAway => ∃ fd, Free limit s fd
  | .destroyed => True

theorem next_kept (t : State) (label : Label) (books : Books limit s) (kept : Kept limit s)
    (enabled : Enabled limit s label) (considerate : Considerate s label)
    (moved : next callback s label = some t) : Kept limit t := by
  obtain ⟨table, acceptFd, idleFd, place, backlog, arrived, fates⟩ := s
  cases label with
  | arrive =>
      cases moved
      exact kept
  | accept result =>
      obtain ⟨rfl, answer⟩ := enabled
      cases result with
      | ok number =>
          obtain ⟨peer, rest, rfl⟩ := List.exists_cons_of_ne_nil answer.2
          cases moved
          exact kept
      | error errno => cases errno <;> cases moved <;> exact kept
  | dispatch =>
      cases place with
      | accepted connfd peer => cases callback <;> cases moved <;> exact kept
      | outside | exhausted | released | taken | turnedAway | destroyed => cases enabled
  | closeIdle =>
      cases enabled
      cases moved
      obtain ⟨fd, rfl⟩ := Option.ne_none_iff_exists'.mp kept
      exact ⟨fd, books.limited fd rfl, Function.update_self _ _ _⟩
  | acceptIdle result =>
      obtain ⟨rfl, answer⟩ := enabled
      cases result with
      | ok number =>
          obtain ⟨peer, rest, rfl⟩ := List.exists_cons_of_ne_nil answer.2
          cases moved
          exact Option.some_ne_none number
      | error errno =>
          cases moved
          exact kept
  | closeTaken =>
      cases place with
      | taken peer =>
          cases moved
          cases peer with
          | none => exact kept.imp fun _ free => free.close idleFd
          | some peer =>
              obtain ⟨fd, rfl⟩ := Option.ne_none_iff_exists'.mp kept
              exact ⟨fd, books.limited fd rfl, Function.update_self _ _ _⟩
      | outside | accepted | exhausted | released | turnedAway | destroyed => cases enabled
  | openIdle result =>
      obtain ⟨rfl, answer⟩ := enabled
      obtain ⟨fd, free⟩ := kept
      cases result with
      | ok number =>
          cases moved
          exact Option.some_ne_none number
      | error errno =>
          cases errno with
          | EMFILE => exact absurd free.2 (answer fd free.1)
          | EAGAIN => cases answer
          | another => cases considerate
  | destroy =>
      cases moved
      trivial
  | openOther owner fd =>
      cases moved
      cases place with
      | released | taken | turnedAway => cases considerate
      | outside | accepted | exhausted | destroyed => exact kept
  | closeOther fd =>
      cases moved
      cases place with
      | released | turnedAway => exact kept.imp fun _ free => free.close (some fd)
      | taken peer =>
          cases peer with
          | none => exact kept.imp fun _ free => free.close (some fd)
          | some peer => exact kept
      | outside | accepted | exhausted | destroyed => exact kept

/-- In every run in which nobody else opens a descriptor while idleFd_ is given up, and
accept and open fail for no other reason than that no number is free or nothing waits:
whenever handleRead is called while a connection waits, it hands a connection over or turns
one away. The Acceptor is never stuck for want of descriptors. -/
theorem acceptor_serves (start : State) (initial : Initial limit start) (history : List Label)
    (s : State) (run : (considerate limit callback).Run start history s)
    (waits : s.backlog ≠ []) (result : Result) (labels : List Label) (t : State)
    (called : (considerate limit callback).Run s (.accept result :: labels) t)
    (outside : t.place = .outside) : s.fates.length < t.fates.length := by
  have keeps : (considerate limit callback).Preserves fun u => Books limit u ∧ Kept limit u := by
    intro u label v inv enabled moved
    exact ⟨books_preserves callback u label v inv.1 enabled.1 moved,
      next_kept callback v label inv.1 inv.2 enabled.1 enabled.2 moved⟩
  have begun : Kept limit start := by
    obtain ⟨fd, _, number, _⟩ := initial.idle
    rw [Kept, initial.outside]
    dsimp only
    rw [number]
    exact Option.some_ne_none fd
  obtain ⟨books, kept⟩ := run.invariant keeps ⟨initial.books, begun⟩
  obtain ⟨_, ⟨⟨at_, _⟩, _⟩, _, _⟩ := called.uncons
  rw [Kept, at_] at kept
  exact call_serves callback books waits (Or.inl kept) result labels t called outside

end

/-- A connection is turned away. -/
def call : List Label :=
  [.accept (.error .EMFILE), .closeIdle, .acceptIdle (.ok 1), .closeTaken, .openIdle (.ok 1)]

/-- Then handleRead is called in vain. -/
theorem handleRead_serves_overtaken :
    ∃ s, (machine 2 true).Run started overtaken s ∧ s.backlog = [1] ∧
      ¬ ∀ result labels t, (considerate 2 true).Run s (.accept result :: labels) t →
        t.place = .outside → s.fates.length < t.fates.length := by
  obtain ⟨s, run, seen⟩ := Machine.exists_run_of_play (machine 2 true) started overtaken
    (fun s => (s.place, s.backlog, s.idleFd, decide (Full 2 s))) (.outside, [1], none, true)
    (by decide)
  simp only [Prod.mk.injEq, decide_eq_true_eq] at seen
  obtain ⟨outside, backlog, lost, full⟩ := seen
  refine ⟨s, run, backlog, ?_⟩
  rw [handleRead_serves_iff true started started_initial overtaken s run outside
    (by simp [backlog])]
  rintro (kept | ⟨fd, small, free⟩)
  · exact kept lost
  · exact full fd small free

theorem acceptor_serves_call :
    ∃ s t, (considerate 2 true).Run started [.arrive] s ∧ (considerate 2 true).Run s call t ∧
      s.fates.length < t.fates.length := by
  have run : (considerate 2 true).Run started [.arrive]
      { started with backlog := [0], arrived := 1 } := .single ⟨trivial, trivial⟩ rfl
  obtain ⟨t, called, outside⟩ := Machine.exists_run_of_play (considerate 2 true)
    { started with backlog := [0], arrived := 1 } call (fun s => s.place) .outside (by decide)
  exact ⟨_, t, run, called, acceptor_serves true started started_initial [.arrive] _ run
    (List.cons_ne_nil 0 []) _ _ t called outside⟩

end Tundra.Acceptor
