import Mathlib.Data.List.Range
import Mathlib.Logic.Function.Basic
import Tundra.Library.Custody
import Tundra.Library.Machine

set_option autoImplicit false

/- net/Acceptor in a process with a limited number of descriptors, which other threads
open and close as well. The idle descriptor is given up and opened again to turn away a
connection for which there is no number. -/
namespace Tundra.Acceptor

open Library

/-- What an open descriptor stands for: acceptSocket_, the /dev/null of idleFd_, an
accepted connection, or something of another component. -/
inductive Object
  | listener
  | idle
  | connection (peer : Nat)
  | other (owner : Nat)
deriving DecidableEq

abbrev Table := Nat → Option Object

inductive Errno
  | EMFILE
  | EAGAIN
  | another
deriving DecidableEq

/-- What accept or open returns: a descriptor, or -1 with errno. -/
abbrev Result := Except Errno Nat

/-- The number that is kept, with none for -1. -/
def number : Result → Option Nat
  | .ok fd => some fd
  | .error _ => none

/-- How far handleRead is: outside, or behind accept4, behind the test of errno, behind
close(idleFd_), behind the second accept, or behind the second close. -/
inductive Place
  | outside
  | accepted (connfd peer : Nat)
  | exhausted
  | released
  | taken (peer : Option Nat)
  | turnedAway
  | destroyed
deriving DecidableEq

/-- What became of a connection: newConnectionCallback_ got it, or it was closed. -/
inductive Fate
  | handed
  | closed
deriving DecidableEq

/-- The connections are numbered in the order in which the kernel has queued them. -/
structure State where
  table : Table
  acceptFd : Nat
  idleFd : Option Nat
  place : Place
  backlog : List Nat
  arrived : Nat
  fates : List (Nat × Fate)

inductive Label
  | arrive
  | accept (result : Result)
  | dispatch
  | closeIdle
  | acceptIdle (result : Result)
  | closeTaken
  | openIdle (result : Result)
  | destroy
  | openOther (owner fd : Nat)
  | closeOther (fd : Nat)
deriving DecidableEq

/-- close(2), which leaves the table alone when it is given -1. -/
def close (table : Table) : Option Nat → Table
  | some fd => Function.update table fd none
  | none => table

def opens (table : Table) (fd : Nat) (object : Object) : Table :=
  Function.update table fd (some object)

section

variable (limit : Nat) (callback : Bool)

def Free (s : State) (fd : Nat) : Prop := fd < limit ∧ s.table fd = none

/-- Every number below RLIMIT_NOFILE is in use. -/
def Full (s : State) : Prop := ∀ fd < limit, s.table fd ≠ none

/-- The answers of accept on a listening socket that does not block. -/
def Accepts (s : State) : Result → Prop
  | .ok fd => Free limit s fd ∧ s.backlog ≠ []
  | .error .EMFILE => Full limit s
  | .error .EAGAIN => s.backlog = []
  | .error .another => True

def Opens (s : State) : Result → Prop
  | .ok fd => Free limit s fd
  | .error .EMFILE => Full limit s
  | .error .EAGAIN => False
  | .error .another => True

def Place.isTaken : Place → Bool
  | .taken _ => true
  | .outside | .accepted _ _ | .exhausted | .released | .turnedAway | .destroyed => false

def Place.isAccepted : Place → Bool
  | .accepted _ _ => true
  | .outside | .exhausted | .released | .taken _ | .turnedAway | .destroyed => false

/-- What the other components have opened, and the connections they were handed. -/
def Foreign (fates : List (Nat × Fate)) : Object → Prop
  | .other _ => True
  | .connection peer => (peer, .handed) ∈ fates
  | .listener | .idle => False

/-- The other components close what is theirs. -/
def Closable (s : State) (fd : Nat) : Prop := ∃ object ∈ s.table fd, Foreign s.fates object

def Enabled (s : State) : Label → Prop
  | .arrive => True
  | .accept result => s.place = .outside ∧ Accepts limit s result
  | .dispatch => s.place.isAccepted = true
  | .closeIdle => s.place = .exhausted
  | .acceptIdle result => s.place = .released ∧ Accepts limit s result
  | .closeTaken => s.place.isTaken = true
  | .openIdle result => s.place = .turnedAway ∧ Opens limit s result
  | .destroy => s.place = .outside
  | .openOther _ fd => Free limit s fd
  | .closeOther fd => Closable s fd

instance (s : State) (fd : Nat) : Decidable (Free limit s fd) :=
  inferInstanceAs (Decidable (fd < limit ∧ s.table fd = none))

instance (s : State) : Decidable (Full limit s) :=
  inferInstanceAs (Decidable (∀ fd < limit, s.table fd ≠ none))

instance (s : State) : (result : Result) → Decidable (Accepts limit s result)
  | .ok fd => inferInstanceAs (Decidable (Free limit s fd ∧ s.backlog ≠ []))
  | .error .EMFILE => inferInstanceAs (Decidable (Full limit s))
  | .error .EAGAIN => inferInstanceAs (Decidable (s.backlog = []))
  | .error .another => inferInstanceAs (Decidable True)

instance (s : State) : (result : Result) → Decidable (Opens limit s result)
  | .ok fd => inferInstanceAs (Decidable (Free limit s fd))
  | .error .EMFILE => inferInstanceAs (Decidable (Full limit s))
  | .error .EAGAIN => inferInstanceAs (Decidable False)
  | .error .another => inferInstanceAs (Decidable True)

instance (fates : List (Nat × Fate)) : (object : Object) → Decidable (Foreign fates object)
  | .other _ => inferInstanceAs (Decidable True)
  | .connection peer => inferInstanceAs (Decidable ((peer, .handed) ∈ fates))
  | .listener | .idle => inferInstanceAs (Decidable False)

instance (s : State) (fd : Nat) : Decidable (Closable s fd) :=
  inferInstanceAs (Decidable (∃ object ∈ s.table fd, Foreign s.fates object))

instance (s : State) : (label : Label) → Decidable (Enabled limit s label)
  | .arrive => inferInstanceAs (Decidable True)
  | .accept result => inferInstanceAs (Decidable (s.place = .outside ∧ Accepts limit s result))
  | .dispatch => inferInstanceAs (Decidable (s.place.isAccepted = true))
  | .closeIdle => inferInstanceAs (Decidable (s.place = .exhausted))
  | .acceptIdle result => inferInstanceAs (Decidable (s.place = .released ∧ Accepts limit s result))
  | .closeTaken => inferInstanceAs (Decidable (s.place.isTaken = true))
  | .openIdle result => inferInstanceAs (Decidable (s.place = .turnedAway ∧ Opens limit s result))
  | .destroy => inferInstanceAs (Decidable (s.place = .outside))
  | .openOther _ fd => inferInstanceAs (Decidable (Free limit s fd))
  | .closeOther fd => inferInstanceAs (Decidable (Closable s fd))

def next (s : State) : Label → Option State
  | .arrive => some { s with backlog := s.backlog ++ [s.arrived], arrived := s.arrived + 1 }
  | .accept (.ok fd) =>
      match s.backlog with
      | [] => none
      | peer :: rest => some { s with
          table := opens s.table fd (.connection peer)
          place := .accepted fd peer
          backlog := rest }
  | .accept (.error .EMFILE) => some { s with place := .exhausted }
  | .accept (.error _) => some s
  | .dispatch =>
      match s.place with
      | .accepted connfd peer =>
          if callback then
            some { s with place := .outside, fates := s.fates ++ [(peer, .handed)] }
          else
            some { s with
              table := close s.table (some connfd)
              place := .outside
              fates := s.fates ++ [(peer, .closed)] }
      | _ => none
  | .closeIdle => some { s with table := close s.table s.idleFd, place := .released }
  | .acceptIdle (.ok fd) =>
      match s.backlog with
      | [] => none
      | peer :: rest => some { s with
          table := opens s.table fd (.connection peer)
          idleFd := number (.ok fd)
          place := .taken (some peer)
          backlog := rest }
  | .acceptIdle (.error errno) =>
      some { s with idleFd := number (.error errno), place := .taken none }
  | .closeTaken =>
      match s.place with
      | .taken peer => some { s with
          table := close s.table s.idleFd
          place := .turnedAway
          fates := s.fates ++ peer.toList.map (·, .closed) }
      | _ => none
  | .openIdle (.ok fd) => some { s with
      table := opens s.table fd .idle
      idleFd := number (.ok fd)
      place := .outside }
  | .openIdle (.error errno) =>
      some { s with idleFd := number (.error errno), place := .outside }
  | .destroy => some { s with
      table := close (close s.table s.idleFd) (some s.acceptFd)
      place := .destroyed }
  | .openOther owner fd => some { s with table := opens s.table fd (.other owner) }
  | .closeOther fd => some { s with table := close s.table (some fd) }

def machine : Machine State Label where
  enabled := Enabled limit
  step := next callback

instance (s : State) (label : Label) : Decidable ((machine limit callback).enabled s label) :=
  inferInstanceAs (Decidable (Enabled limit s label))

/-- Behind the constructor, which asserts that idleFd_ could be opened. -/
structure Initial (s : State) : Prop where
  outside : s.place = .outside
  listener : s.table s.acceptFd = some .listener
  idle : ∃ fd < limit, s.idleFd = some fd ∧ s.table fd = some .idle
  others : ∀ fd object, s.table fd = some object →
    fd = s.acceptFd ∨ s.idleFd = some fd ∨ ∃ owner, object = .other owner
  noBacklog : s.backlog = []
  noArrivals : s.arrived = 0
  noFates : s.fates = []

end

/-- The connection that handleRead has in its hands. -/
def Place.peer : Place → Option Nat
  | .accepted _ peer => some peer
  | .taken peer => peer
  | .outside | .exhausted | .released | .turnedAway | .destroyed => none

/-- The descriptor in idleFd_, and what it should stand for. -/
def State.idle (s : State) (object : Object) : List (Nat × Object) :=
  s.idleFd.toList.map (·, object)

/-- What the Acceptor owns. -/
def State.owned (s : State) : List (Nat × Object) :=
  match s.place with
  | .outside | .exhausted => s.idle .idle ++ [(s.acceptFd, .listener)]
  | .accepted connfd peer =>
      (connfd, .connection peer) :: s.idle .idle ++ [(s.acceptFd, .listener)]
  | .taken (some peer) => s.idle (.connection peer) ++ [(s.acceptFd, .listener)]
  | .released | .taken none | .turnedAway => [(s.acceptFd, .listener)]
  | .destroyed => []

/-- The descriptors that the Acceptor closes in a step, and what they should stand for. -/
def closing (callback : Bool) (s : State) : Label → List (Nat × Object)
  | .dispatch =>
      match s.place with
      | .accepted connfd peer => if callback then [] else [(connfd, .connection peer)]
      | _ => []
  | .closeIdle => s.idle .idle
  | .closeTaken =>
      match s.place.peer with
      | some peer => s.idle (.connection peer)
      | none => s.idle .idle
  | .destroy => s.idle .idle ++ [(s.acceptFd, .listener)]
  | .arrive | .accept _ | .acceptIdle _ | .openIdle _ | .openOther _ _ | .closeOther _ => []

section

variable (limit : Nat) (callback : Bool)

/-- Which descriptors are the Acceptor's, and where every connection that has arrived is. -/
structure Books (s : State) : Prop where
  custody : Custody s.table s.owned (Foreign s.fates)
  limited : ∀ fd, s.idleFd = some fd → fd < limit
  empty : s.place = .taken none → s.idleFd = none
  order : s.fates.map Prod.fst ++ s.place.peer.toList ++ s.backlog = List.range s.arrived

variable {limit} {s : State}

theorem Initial.books (initial : Initial limit s) : Books limit s := by
  obtain ⟨fd, small, number, idle⟩ := initial.idle
  have distinct : fd ≠ s.acceptFd := by
    rintro rfl
    rw [initial.listener] at idle
    cases idle
  have owned : s.owned = [(fd, .idle), (s.acceptFd, .listener)] := by
    rw [State.owned, initial.outside, State.idle, number]
    rfl
  refine ⟨⟨?_, ?_, ?_, ?_⟩, ?_, ?_, ?_⟩
  · rw [owned]
    simpa using distinct
  · rw [owned]
    intro key object member
    simp only [List.mem_cons, Prod.mk.injEq, List.not_mem_nil, or_false] at member
    rcases member with ⟨rfl, rfl⟩ | ⟨rfl, rfl⟩
    · exact idle
    · exact initial.listener
  · rw [owned]
    intro key object member
    simp only [List.mem_cons, Prod.mk.injEq, List.not_mem_nil, or_false] at member
    rcases member with ⟨rfl, rfl⟩ | ⟨rfl, rfl⟩
    · exact id
    · exact id
  · rw [owned]
    intro key object found
    rcases initial.others key object found with rfl | spare | ⟨owner, rfl⟩
    · cases initial.listener.symm.trans found
      simp
    · cases number.symm.trans spare
      cases idle.symm.trans found
      simp
    · exact Or.inr trivial
  · intro key spare
    cases number.symm.trans spare
    exact small
  · rw [initial.outside]
    intro taken
    cases taken
  · rw [initial.outside, initial.noFates, initial.noBacklog, initial.noArrivals]
    rfl

/-- Each connection is in one place only. -/
theorem Books.unmet (books : Books limit s) (peer : Nat) (fate : Fate)
    (waits : peer ∈ s.place.peer.toList ++ s.backlog) : (peer, fate) ∉ s.fates := by
  intro member
  have distinct := List.nodup_range (n := s.arrived)
  rw [← books.order, List.append_assoc] at distinct
  exact (List.nodup_append.mp distinct).2.2 peer (List.mem_map_of_mem member) peer waits rfl

theorem foreign_closed (fates : List (Nat × Fate)) (peers : List Nat) (object : Object) :
    Foreign (fates ++ peers.map (·, .closed)) object ↔ Foreign fates object := by
  cases object with
  | connection peer => simp [Foreign]
  | listener | idle | other => exact Iff.rfl

theorem foreign_handed (fates : List (Nat × Fate)) (peer : Nat) (object : Object)
    (known : Foreign fates object) : Foreign (fates ++ [(peer, .handed)]) object := by
  cases object with
  | connection => exact List.mem_append_left _ known
  | listener | idle | other => exact known

/-- /dev/null and the listening socket are never given away. -/
theorem idle_own (s : State) (fates : List (Nat × Fate)) (fd : Nat) (object : Object)
    (member : (fd, object) ∈ s.idle .idle ++ [(s.acceptFd, .listener)]) :
    ¬ Foreign fates object := by
  simp only [State.idle, List.mem_append, List.mem_map, Prod.mk.injEq, List.mem_singleton] at member
  rcases member with ⟨_, _, _, rfl⟩ | ⟨_, rfl⟩
  · exact id
  · exact id

/-- The descriptor in idleFd_ is closed, if there is one. -/
theorem closed_custody (object : Object) (owned : List (Nat × Object)) (foreign : Object → Prop)
    (custody : Custody s.table (s.idle object ++ owned) foreign) :
    Custody (close s.table s.idleFd) owned foreign := by
  rw [State.idle] at custody
  cases number : s.idleFd with
  | none =>
      rw [number] at custody
      exact custody
  | some fd =>
      rw [number] at custody
      exact custody.remove

/-- A step that leaves the table and the connections alone. -/
theorem Books.moved (books : Books limit s) (place : Place)
    (owned : State.owned { s with place := place } = s.owned) (peer : place.peer = s.place.peer)
    (full : place ≠ .taken none) : Books limit { s with place := place } := by
  refine ⟨?_, books.limited, fun taken => absurd taken full, ?_⟩
  · rw [owned]
    exact books.custody
  · dsimp only
    rw [peer]
    exact books.order

theorem Books.accept (books : Books limit s) (outside : s.place = .outside) (fd peer : Nat)
    (rest : List Nat) (free : s.table fd = none) (waits : s.backlog = peer :: rest) :
    Books limit { s with
      table := opens s.table fd (.connection peer)
      place := .accepted fd peer
      backlog := rest } := by
  have unmet := books.unmet peer .handed (by rw [waits]; simp)
  have custody := books.custody
  have order := books.order
  rw [State.owned, outside] at custody
  refine ⟨custody.insert free unmet, books.limited, ?_, ?_⟩
  · intro taken
    cases taken
  · rw [outside, waits] at order
    simpa [Place.peer] using order

theorem Books.dispatch (books : Books limit s) (connfd peer : Nat)
    (accepted : s.place = .accepted connfd peer) :
    Books limit { s with place := .outside, fates := s.fates ++ [(peer, .handed)] } ∧
      Books limit { s with
        table := close s.table (some connfd)
        place := .outside
        fates := s.fates ++ [(peer, .closed)] } := by
  have custody := books.custody
  have order := books.order
  rw [State.owned, accepted] at custody
  rw [accepted] at order
  have outside (fate : Fate) : (s.fates ++ [(peer, fate)]).map Prod.fst ++
      Place.outside.peer.toList ++ s.backlog = List.range s.arrived := by
    rw [← order]
    simp [Place.peer]
  constructor
  · refine ⟨?_, books.limited, fun taken => (by cases taken), outside .handed⟩
    exact custody.give (foreign_handed s.fates peer) (by simp [Foreign]) (idle_own s _)
  · refine ⟨?_, books.limited, fun taken => (by cases taken), outside .closed⟩
    exact custody.remove.mono (fun object => (foreign_closed s.fates [peer] object).mpr)
      (idle_own s _)

theorem Books.closeIdle (books : Books limit s) (exhausted : s.place = .exhausted) :
    Books limit { s with table := close s.table s.idleFd, place := .released } := by
  have custody := books.custody
  have order := books.order
  rw [State.owned, exhausted] at custody
  rw [exhausted] at order
  refine ⟨closed_custody _ _ _ custody, books.limited, ?_, order⟩
  intro taken
  cases taken

theorem Books.acceptIdle (books : Books limit s) (released : s.place = .released) (fd peer : Nat)
    (rest : List Nat) (free : Free limit s fd) (waits : s.backlog = peer :: rest) :
    Books limit { s with
      table := opens s.table fd (.connection peer)
      idleFd := some fd
      place := .taken (some peer)
      backlog := rest } := by
  have unmet := books.unmet peer .handed (by rw [waits]; simp)
  have custody := books.custody
  have order := books.order
  rw [State.owned, released] at custody
  refine ⟨custody.insert free.2 unmet, ?_, ?_, ?_⟩
  · intro number same
    cases same
    exact free.1
  · intro taken
    cases taken
  · rw [released, waits] at order
    simpa [Place.peer] using order

/-- accept or open has returned -1, and idleFd_ is -1. -/
theorem Books.failed (books : Books limit s) (place : Place)
    (owned : State.owned { s with idleFd := none, place := place } = s.owned)
    (peer : place.peer = s.place.peer) : Books limit { s with idleFd := none, place := place } := by
  refine ⟨?_, ?_, fun _ => rfl, ?_⟩
  · rw [owned]
    exact books.custody
  · intro fd impossible
    cases impossible
  · dsimp only
    rw [peer]
    exact books.order

theorem Books.closeTaken (books : Books limit s) (peer : Option Nat)
    (taken : s.place = .taken peer) :
    Books limit { s with
      table := close s.table s.idleFd
      place := .turnedAway
      fates := s.fates ++ peer.toList.map (·, .closed) } := by
  have custody := books.custody
  have order := books.order
  have listener (fates : List (Nat × Fate)) (fd : Nat) (object : Object)
      (member : (fd, object) ∈ [(s.acceptFd, Object.listener)]) : ¬ Foreign fates object :=
    idle_own s fates fd object (List.mem_append_right _ member)
  have left : Custody (close s.table s.idleFd) [(s.acceptFd, .listener)] (Foreign s.fates) := by
    cases peer with
    | none =>
        rw [State.owned, taken] at custody
        rw [books.empty taken]
        exact custody
    | some peer =>
        rw [State.owned, taken] at custody
        exact closed_custody _ _ _ custody
  refine ⟨?_, books.limited, fun again => (by cases again), ?_⟩
  · exact left.mono (fun object => (foreign_closed s.fates peer.toList object).mpr) (listener _)
  · rw [taken] at order
    rw [← order]
    simp [Place.peer, Function.comp_def]

theorem Books.openIdle (books : Books limit s) (away : s.place = .turnedAway) (fd : Nat)
    (free : Free limit s fd) :
    Books limit { s with
      table := opens s.table fd .idle
      idleFd := some fd
      place := .outside } := by
  have custody := books.custody
  have order := books.order
  rw [State.owned, away] at custody
  rw [away] at order
  refine ⟨custody.insert free.2 id, ?_, fun taken => (by cases taken), order⟩
  intro number same
  cases same
  exact free.1

theorem Books.destroy (books : Books limit s) (outside : s.place = .outside) :
    Books limit { s with
      table := close (close s.table s.idleFd) (some s.acceptFd)
      place := .destroyed } := by
  have custody := books.custody
  have order := books.order
  rw [State.owned, outside] at custody
  rw [outside] at order
  exact ⟨(closed_custody _ _ _ custody).remove, books.limited, fun taken => (by cases taken), order⟩

/-- The other components are at their own descriptors. -/
theorem Books.others (books : Books limit s) (fd : Nat) (value : Option Object)
    (before : ∀ object, s.table fd = some object → Foreign s.fates object)
    (behind : ∀ object, value = some object → Foreign s.fates object) :
    Books limit { s with table := Function.update s.table fd value } :=
  ⟨books.custody.update_foreign before behind, books.limited, books.empty, books.order⟩

/-- No step fails, and each keeps the books. -/
theorem next_books (books : Books limit s) (label : Label) (enabled : Enabled limit s label) :
    ∃ t, next callback s label = some t ∧ Books limit t := by
  cases label with
  | arrive =>
      refine ⟨_, rfl, books.custody, books.limited, books.empty, ?_⟩
      dsimp only
      rw [List.range_succ, ← books.order, List.append_assoc _ s.backlog]
  | accept result =>
      obtain ⟨outside, answer⟩ := enabled
      cases result with
      | ok fd =>
          obtain ⟨free, some⟩ := answer
          obtain ⟨peer, rest, waits⟩ := List.exists_cons_of_ne_nil some
          refine ⟨_, by rw [next, waits], books.accept outside fd peer rest free.2 waits⟩
      | error errno =>
          cases errno with
          | EMFILE =>
              refine ⟨_, rfl, books.moved .exhausted ?_ ?_ (by simp)⟩
              · rw [State.owned, State.owned, outside]
                rfl
              · rw [outside]
                rfl
          | EAGAIN | another => exact ⟨s, rfl, books⟩
  | dispatch =>
      obtain ⟨table, acceptFd, idleFd, place, backlog, arrived, fates⟩ := s
      cases place with
      | accepted connfd peer =>
          obtain ⟨handed, closed⟩ := books.dispatch connfd peer rfl
          cases callback with
          | true => exact ⟨_, rfl, handed⟩
          | false => exact ⟨_, rfl, closed⟩
      | outside | exhausted | released | taken | turnedAway | destroyed => cases enabled
  | closeIdle => exact ⟨_, rfl, books.closeIdle enabled⟩
  | acceptIdle result =>
      obtain ⟨released, answer⟩ := enabled
      cases result with
      | ok fd =>
          obtain ⟨free, some⟩ := answer
          obtain ⟨peer, rest, waits⟩ := List.exists_cons_of_ne_nil some
          refine ⟨_, by rw [next, waits]; rfl, books.acceptIdle released fd peer rest free waits⟩
      | error errno =>
          refine ⟨_, rfl, books.failed (.taken none) ?_ ?_⟩
          · rw [State.owned, State.owned, released]
          · rw [released]
            rfl
  | closeTaken =>
      obtain ⟨table, acceptFd, idleFd, place, backlog, arrived, fates⟩ := s
      cases place with
      | taken peer => exact ⟨_, rfl, books.closeTaken peer rfl⟩
      | outside | accepted | exhausted | released | turnedAway | destroyed => cases enabled
  | openIdle result =>
      obtain ⟨away, answer⟩ := enabled
      cases result with
      | ok fd => exact ⟨_, rfl, books.openIdle away fd answer⟩
      | error errno =>
          refine ⟨_, rfl, books.failed .outside ?_ ?_⟩
          · rw [State.owned, State.owned, away]
            rfl
          · rw [away]
            rfl
  | destroy => exact ⟨_, rfl, books.destroy enabled⟩
  | openOther owner fd =>
      refine ⟨_, rfl, books.others fd _ ?_ ?_⟩
      · intro object found
        rw [enabled.2] at found
        cases found
      · intro object same
        cases same
        exact trivial
  | closeOther fd =>
      obtain ⟨object, found, foreign⟩ := enabled
      refine ⟨_, rfl, books.others fd none ?_ ?_⟩
      · intro other same
        cases found.symm.trans same
        exact foreign
      · intro other same
        cases same

/-- What the Acceptor owns is in idleFd_, in the hands of handleRead, or its socket. -/
theorem owned_spec (s : State) (fd : Nat) (object : Object) (member : (fd, object) ∈ s.owned) :
    match object with
    | .listener => fd = s.acceptFd
    | .idle => s.idleFd = some fd
    | .connection peer => s.place.peer = some peer
    | .other _ => False := by
  have listens (here : (fd, object) ∈ [(s.acceptFd, Object.listener)]) :
      fd = s.acceptFd ∧ object = .listener := by
    simpa only [List.mem_singleton, Prod.mk.injEq] using here
  have idles (expected : Object) (here : (fd, object) ∈ s.idle expected) :
      s.idleFd = some fd ∧ object = expected := by
    simp only [State.idle, List.mem_map, Option.mem_toList, Prod.mk.injEq] at here
    obtain ⟨_, number, rfl, rfl⟩ := here
    exact ⟨number, rfl⟩
  have both (here : (fd, object) ∈ s.idle .idle ++ [(s.acceptFd, .listener)]) :
      s.idleFd = some fd ∧ object = .idle ∨ fd = s.acceptFd ∧ object = .listener :=
    (List.mem_append.mp here).imp (idles .idle) listens
  cases at_ : s.place with
  | outside | exhausted =>
      rw [State.owned, at_] at member
      rcases both member with ⟨number, rfl⟩ | ⟨rfl, rfl⟩
      · exact number
      · rfl
  | accepted connfd peer =>
      rw [State.owned, at_] at member
      rcases List.mem_cons.mp member with same | rest
      · cases same
        rfl
      · rcases both rest with ⟨number, rfl⟩ | ⟨rfl, rfl⟩
        · exact number
        · rfl
  | released | turnedAway =>
      rw [State.owned, at_] at member
      obtain ⟨rfl, rfl⟩ := listens member
      rfl
  | taken peer =>
      rw [State.owned, at_] at member
      cases peer with
      | none =>
          obtain ⟨rfl, rfl⟩ := listens member
          rfl
      | some peer =>
          rcases List.mem_append.mp member with idle | listener
          · obtain ⟨_, rfl⟩ := idles _ idle
            rfl
          · obtain ⟨rfl, rfl⟩ := listens listener
            rfl
  | destroyed =>
      rw [State.owned, at_] at member
      cases member

theorem closing_owned (books : Books limit s) (label : Label) (enabled : Enabled limit s label) :
    ∀ entry ∈ closing callback s label, s.table entry.1 = some entry.2 := by
  intro ⟨fd, object⟩ member
  apply books.custody.held
  obtain ⟨table, acceptFd, idleFd, place, backlog, arrived, fates⟩ := s
  cases label with
  | dispatch =>
      cases place with
      | accepted connfd peer =>
          cases callback with
          | true => cases member
          | false =>
              rw [List.mem_singleton.mp member]
              exact List.mem_cons_self
      | outside | exhausted | released | taken | turnedAway | destroyed => cases enabled
  | closeIdle =>
      cases enabled
      exact List.mem_append_left _ member
  | closeTaken =>
      cases place with
      | taken peer =>
          cases peer with
          | none =>
              cases books.empty rfl
              cases member
          | some peer => exact List.mem_append_left _ member
      | outside | accepted | exhausted | released | turnedAway | destroyed => cases enabled
  | destroy =>
      cases enabled
      exact member
  | arrive | accept | acceptIdle | openIdle | openOther | closeOther => cases member

theorem close_removes (table : Table) (closed : Option Nat) (fd : Nat) (object : Object) :
    table fd = some object ∧ close table closed fd ≠ some object ↔
      closed = some fd ∧ table fd = some object := by
  cases closed with
  | none => simp [close]
  | some key =>
      by_cases same : fd = key
      · subst same
        simp [close]
      · simp [close, same, Ne.symm same]

/-- A number that is free is opened. -/
theorem opens_keeps (table : Table) (key : Nat) (new : Object) (free : table key = none)
    (fd : Nat) (object : Object) :
    ¬ (table fd = some object ∧ opens table key new fd ≠ some object) := by
  rintro ⟨there, gone⟩
  have other : fd ≠ key := by
    rintro rfl
    cases free.symm.trans there
  exact gone ((Function.update_of_ne other _ _).trans there)

theorem mem_idle (fd : Nat) (object expected : Object) :
    (fd, object) ∈ s.idle expected ↔ s.idleFd = some fd ∧ object = expected := by
  simp only [State.idle, List.mem_map, Option.mem_toList, Prod.mk.injEq]
  constructor
  · rintro ⟨_, number, rfl, rfl⟩
    exact ⟨number, rfl⟩
  · rintro ⟨number, rfl⟩
    exact ⟨fd, number, rfl, rfl⟩

/-- close(idleFd_), when what idleFd_ should stand for is there. -/
theorem closeIdle_removes (expected : Object)
    (held : ∀ entry ∈ s.idle expected, s.table entry.1 = some entry.2) (fd : Nat)
    (object : Object) : s.table fd = some object ∧ close s.table s.idleFd fd ≠ some object ↔
      (fd, object) ∈ s.idle expected := by
  rw [close_removes, mem_idle]
  refine and_congr_right fun number => ?_
  have there := held (fd, expected) ((mem_idle fd expected expected).mpr ⟨number, rfl⟩)
  constructor
  · exact fun found => Option.some.inj (found.symm.trans there)
  · rintro rfl
    exact there

/-- The entries of the table that a step of the Acceptor takes out are those in `closing`. -/
theorem closing_iff (books : Books limit s) (label : Label) (enabled : Enabled limit s label)
    (own : ∀ fd, label ≠ .closeOther fd) {t : State} (moved : next callback s label = some t)
    (fd : Nat) (object : Object) : s.table fd = some object ∧ t.table fd ≠ some object ↔
      (fd, object) ∈ closing callback s label := by
  have held := closing_owned callback books label enabled
  have quiet (same : t.table = s.table) (none : closing callback s label = []) :
      s.table fd = some object ∧ t.table fd ≠ some object ↔
        (fd, object) ∈ closing callback s label := by
    rw [same, none]
    exact iff_of_false (fun both => both.2 both.1) List.not_mem_nil
  cases label with
  | arrive =>
      cases moved
      exact quiet rfl rfl
  | accept result =>
      cases result with
      | ok key =>
          dsimp only [next] at moved
          split at moved
          · cases moved
          · cases moved
            exact iff_of_false (opens_keeps _ key _ enabled.2.1.2 fd object) List.not_mem_nil
      | error errno => cases errno <;> cases moved <;> exact quiet rfl rfl
  | dispatch =>
      cases at_ : s.place with
      | accepted connfd peer =>
          simp only [next, at_] at moved
          cases callback with
          | true =>
              cases moved
              exact quiet rfl (by simp [closing, at_])
          | false =>
              cases moved
              have mine : closing false s .dispatch = [(connfd, .connection peer)] := by
                simp [closing, at_]
              rw [mine] at held ⊢
              have there := held _ List.mem_cons_self
              rw [List.mem_singleton, Prod.mk.injEq]
              refine (close_removes s.table (some connfd) fd object).trans ?_
              constructor
              · rintro ⟨same, found⟩
                cases same
                exact ⟨rfl, Option.some.inj (found.symm.trans there)⟩
              · rintro ⟨rfl, rfl⟩
                exact ⟨rfl, there⟩
      | outside | exhausted | released | taken | turnedAway | destroyed =>
          rw [Enabled, at_] at enabled
          cases enabled
  | closeIdle =>
      cases moved
      exact closeIdle_removes .idle held fd object
  | acceptIdle result =>
      cases result with
      | ok key =>
          dsimp only [next] at moved
          split at moved
          · cases moved
          · cases moved
            exact iff_of_false (opens_keeps _ key _ enabled.2.1.2 fd object) List.not_mem_nil
      | error errno =>
          cases moved
          exact quiet rfl rfl
  | closeTaken =>
      cases at_ : s.place with
      | taken peer =>
          simp only [next, at_, Option.some.injEq] at moved
          subst moved
          cases peer with
          | none =>
              have mine : closing callback s .closeTaken = s.idle .idle := by
                simp [closing, at_, Place.peer]
              rw [mine] at held ⊢
              exact closeIdle_removes .idle held fd object
          | some peer =>
              have mine : closing callback s .closeTaken = s.idle (.connection peer) := by
                simp [closing, at_, Place.peer]
              rw [mine] at held ⊢
              exact closeIdle_removes (.connection peer) held fd object
      | outside | accepted | exhausted | released | turnedAway | destroyed =>
          rw [Enabled, at_] at enabled
          cases enabled
  | openIdle result =>
      cases result with
      | ok key =>
          cases moved
          exact iff_of_false (opens_keeps _ key _ enabled.2.2 fd object) List.not_mem_nil
      | error errno =>
          cases moved
          exact quiet rfl rfl
  | destroy =>
      cases moved
      have listens := held (s.acceptFd, .listener) (List.mem_append_right _ List.mem_cons_self)
      have idles := closeIdle_removes .idle
        (fun entry member => held entry (List.mem_append_left _ member)) fd object
      show s.table fd = some object ∧
        close (close s.table s.idleFd) (some s.acceptFd) fd ≠ some object ↔
          (fd, object) ∈ s.idle .idle ++ [(s.acceptFd, .listener)]
      rw [List.mem_append, List.mem_singleton, Prod.mk.injEq, ← idles]
      by_cases same : fd = s.acceptFd
      · subst same
        have gone : close (close s.table s.idleFd) (some s.acceptFd) s.acceptFd = none :=
          Function.update_self ..
        rw [gone, listens]
        constructor
        · rintro ⟨found, _⟩
          exact Or.inr ⟨rfl, (Option.some.inj found).symm⟩
        · rintro (⟨found, _⟩ | ⟨_, rfl⟩)
          · exact ⟨found, by simp⟩
          · exact ⟨rfl, by simp⟩
      · have kept : close (close s.table s.idleFd) (some s.acceptFd) fd =
            close s.table s.idleFd fd := Function.update_of_ne same ..
        rw [kept, or_iff_left fun both => same both.1]
  | openOther owner key =>
      cases moved
      exact iff_of_false (opens_keeps _ key _ enabled.2 fd object) List.not_mem_nil
  | closeOther key => exact absurd rfl (own key)

theorem books_preserves : (machine limit callback).Preserves (Books limit) := by
  intro s label t books enabled moved
  obtain ⟨u, stepped, kept⟩ := next_books callback books label enabled
  obtain rfl : u = t := Option.some.inj (stepped.symm.trans moved)
  exact kept

/-- In every run, whatever the other threads open and close in between: the Acceptor
closes only descriptors that stand for what it has put there; every connection that has
arrived has been handed over or closed once, in the order of arrival, or is in the hands of
handleRead, or waits; a connection's descriptor is open only if it has been handed over or
is in the hands of handleRead; and no second /dev/null is left open. -/
theorem acceptor_owns (start : State) (initial : Initial limit start) (labels : List Label)
    (s : State) (run : (machine limit callback).Run start labels s) :
    (∀ step ∈ (machine limit callback).trace start labels,
      ∀ entry ∈ closing callback step.1 step.2.1, step.1.table entry.1 = some entry.2) ∧
    s.fates.map Prod.fst ++ s.place.peer.toList ++ s.backlog = List.range s.arrived ∧
    (∀ fd peer, s.table fd = some (.connection peer) →
      (peer, .handed) ∈ s.fates ∨ s.place.peer = some peer) ∧
    ∀ fd, s.table fd = some .idle → s.idleFd = some fd := by
  have books := run.invariant (books_preserves callback) initial.books
  refine ⟨?_, books.order, ?_, ?_⟩
  · have own (s : State) (label : Label) (t : State) (known : Books limit s)
        (enabled : (machine limit callback).enabled s label) (_ : next callback s label = some t) :
        ∀ entry ∈ closing callback s label, s.table entry.1 = some entry.2 :=
      closing_owned callback known label enabled
    exact run.forall_trace (books_preserves callback) own initial.books
  · intro fd peer found
    rcases books.custody.rest fd _ found with mine | theirs
    · exact Or.inr (owned_spec s fd _ mine)
    · exact Or.inl theirs
  · intro fd found
    rcases books.custody.rest fd _ found with mine | theirs
    · exact owned_spec s fd _ mine
    · cases theirs

end

/-- Two numbers, both of them the Acceptor's. -/
def started : State :=
  ⟨fun fd => if fd = 0 then some .listener else if fd = 1 then some .idle else none, 0, some 1,
    .outside, [], 0, []⟩

theorem started_initial : Initial 2 started := by
  refine ⟨rfl, rfl, ⟨1, by decide, rfl, rfl⟩, ?_, rfl, rfl, rfl⟩
  intro fd object found
  by_cases zero : fd = 0
  · exact Or.inl zero
  · by_cases one : fd = 1
    · exact Or.inr (Or.inl (one ▸ rfl))
    · simp [started, zero, one] at found

/-- Another thread opens a file while idleFd_ is given up, and one more connection comes. -/
def overtaken : List Label :=
  [.arrive, .accept (.error .EMFILE), .closeIdle, .acceptIdle (.ok 1), .closeTaken,
    .openOther 7 1, .openIdle (.error .EMFILE), .arrive]

/-- The number of idleFd_ is another thread's, and nothing of it has been closed. -/
theorem acceptor_owns_overtaken :
    ∃ s, (machine 2 true).Run started overtaken s ∧ s.table 1 = some (.other 7) ∧
      ∀ step ∈ (machine 2 true).trace started overtaken,
        ∀ entry ∈ closing true step.1 step.2.1, step.1.table entry.1 = some entry.2 := by
  obtain ⟨s, run, other⟩ := Machine.exists_run_of_play (machine 2 true) started overtaken
    (fun s => s.table 1) (some (.other 7)) (by decide)
  exact ⟨s, run, other, (acceptor_owns true started started_initial overtaken s run).1⟩

end Tundra.Acceptor
