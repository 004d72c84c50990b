import Mathlib.Data.Finset.Card
import Tundra.Net.TimerQueue

set_option autoImplicit false

/- Who owns a Timer: a queued call of addTimerInLoop, the two sets together, the batch of
expired timers in handleRead, or nobody, after it has been deleted. -/
namespace Tundra

open Library

/-- The timers that handleRead has taken out of the sets and has not settled yet. -/
def Phase.batch : Phase → List ActiveTimer
  | .idle => []
  | .calling _ expired _ => expired.map Entry.timer
  | .resetting remaining _ => remaining.map Entry.timer

theorem Timer.restart_sequence (t : Timer) (now : TimeStamp) :
    (t.restart now).sequence = t.sequence := by
  unfold Timer.restart
  split <;> rfl

theorem Timer.restart_expiration (t : Timer) (now : TimeStamp) (repeats : t.repeat_ = true) :
    (t.restart now).expiration = now + t.interval := by
  rw [Timer.restart, if_pos repeats]

namespace TimerQueue

/-- The object of the pointer has not been deleted. -/
def Live (s : TimerQueue) (p : ActiveTimer) : Prop :=
  ∃ t, s.heap p.1 = some t ∧ t.sequence = p.2

theorem deref_eq_some (s : TimerQueue) (p : ActiveTimer) (t : Timer) :
    s.deref p = some t ↔ s.heap p.1 = some t ∧ t.sequence = p.2 := by
  rw [deref, Option.filter_eq_some_iff, decide_eq_true_iff]

theorem Live.deref {s : TimerQueue} {p : ActiveTimer} (live : s.Live p) :
    ∃ t, s.deref p = some t := by
  obtain ⟨t, here, same⟩ := live
  exact ⟨t, (deref_eq_some s p t).mpr ⟨here, same⟩⟩

theorem Live.of_deref {s : TimerQueue} {p : ActiveTimer} {t : Timer} (found : s.deref p = some t) :
    s.Live p :=
  ⟨t, (deref_eq_some s p t).mp found⟩

/-- One object lives at an address at a time. -/
theorem Live.unique {s : TimerQueue} {p q : ActiveTimer} (left : s.Live p) (right : s.Live q)
    (same : p.1 = q.1) : p = q := by
  obtain ⟨t, here, first⟩ := left
  obtain ⟨u, there, second⟩ := right
  rw [same, there, Option.some.injEq] at here
  exact Prod.ext same (by rw [← first, ← second, here])

/-- Every Timer that is alive has one owner: the two sets, or whoever has its pointer among
those `held` outside of them. -/
structure Owned (s : TimerQueue) (held : List ActiveTimer) : Prop where
  live : ∀ p, s.Live p ↔ p ∈ held ∨ p ∈ s.activeTimers
  nodup : held.Nodup
  apart : ∀ p ∈ s.activeTimers, p ∉ held
  numbered : ∀ p, s.Live p → 0 < p.2 ∧ s.created[p.2 - 1]? = some p.1
  addressed : ∀ p, s.Live p → p.1 < UINTPTR_MAX
  keyed : ∀ e p, s.timers.find (key e p) = some p.2 ↔
    p ∈ s.activeTimers ∧ ∃ t, s.deref p = some t ∧ t.expiration = e
  sizes : s.timers.size = s.activeTimers.card
  once : s.deleted.Nodup
  gone : ∀ q, q ∈ s.deleted ↔ (0 < q ∧ q ≤ s.numCreated) ∧ ∀ a, ¬ s.Live (a, q)

theorem live_congr {s t : TimerQueue} (heap : t.heap = s.heap) (p : ActiveTimer) :
    t.Live p ↔ s.Live p := by
  rw [Live, Live, heap]

/-- A step that leaves the sets and the Timers in them alone. -/
theorem Owned.keyed_kept {s : TimerQueue} {held : List ActiveTimer} (owned : Owned s held)
    (t : TimerQueue) (timers : t.timers = s.timers)
    (active : t.activeTimers = s.activeTimers) (kept : ∀ p ∈ s.activeTimers, t.deref p = s.deref p)
    (e : TimeStamp) (p : ActiveTimer) :
    t.timers.find (key e p) = some p.2 ↔
      p ∈ t.activeTimers ∧ ∃ u, t.deref p = some u ∧ u.expiration = e := by
  rw [timers, active, owned.keyed e p]
  apply and_congr_right
  intro member
  rw [kept p member]

/-- A Timer in the sets does not live where one that is held does. -/
theorem Owned.elsewhere {s : TimerQueue} {held : List ActiveTimer} (owned : Owned s held)
    {p q : ActiveTimer} (member : p ∈ held) (active : q ∈ s.activeTimers) : q.1 ≠ p.1 := by
  intro same
  have equal := Live.unique ((owned.live q).mpr (Or.inr active))
    ((owned.live p).mpr (Or.inl member)) same
  rw [equal] at active
  exact owned.apart p active member

theorem deref_of_heap {s t : TimerQueue} {p : ActiveTimer} (heap : t.heap p.1 = s.heap p.1) :
    t.deref p = s.deref p := by
  rw [deref, deref, heap]

/-- What ownership depends on. -/
theorem Owned.congr {s t : TimerQueue} {held : List ActiveTimer} (owned : Owned s held)
    (heap : t.heap = s.heap) (created : t.created = s.created) (timers : t.timers = s.timers)
    (active : t.activeTimers = s.activeTimers) (deleted : t.deleted = s.deleted) :
    Owned t held := by
  constructor
  · intro p
    rw [live_congr heap p, active]
    exact owned.live p
  · exact owned.nodup
  · intro p
    rw [active]
    exact owned.apart p
  · intro p
    rw [live_congr heap p, created]
    exact owned.numbered p
  · intro p
    rw [live_congr heap p]
    exact owned.addressed p
  · apply owned.keyed_kept t timers active
    intro p _
    rw [deref_of_heap (congrFun heap p.1)]
  · rw [timers, active]
    exact owned.sizes
  · rw [deleted]
    exact owned.once
  · intro q
    rw [deleted, numCreated, created]
    simp only [live_congr heap]
    exact owned.gone q

/-- In which order the pointers are held does not matter. -/
theorem Owned.perm {s : TimerQueue} {held more : List ActiveTimer} (owned : Owned s held)
    (perm : held.Perm more) : Owned s more where
  live p := by
    rw [← perm.mem_iff]
    exact owned.live p
  nodup := perm.nodup owned.nodup
  apart p member := by
    rw [← perm.mem_iff]
    exact owned.apart p member
  numbered := owned.numbered
  addressed := owned.addressed
  keyed := owned.keyed
  sizes := owned.sizes
  once := owned.once
  gone := owned.gone

/-- The sequence number of a live Timer belongs to no other one. -/
theorem Owned.address_unique {s : TimerQueue} {held : List ActiveTimer} (owned : Owned s held)
    {p q : ActiveTimer} (left : s.Live p) (right : s.Live q) (same : p.2 = q.2) : p = q := by
  have first := (owned.numbered p left).2
  have second := (owned.numbered q right).2
  rw [same, second, Option.some.injEq] at first
  exact Prod.ext first.symm same

theorem Owned.sequence_le {s : TimerQueue} {held : List ActiveTimer} (owned : Owned s held)
    {p : ActiveTimer} (live : s.Live p) : p.2 ≤ s.numCreated := by
  obtain ⟨positive, at_⟩ := owned.numbered p live
  obtain ⟨below, _⟩ := List.getElem?_eq_some_iff.mp at_
  unfold numCreated
  omega

theorem Live.not_free {s : TimerQueue} {p : ActiveTimer} (live : s.Live p) {address : Nat}
    (free : s.heap address = none) : p.1 ≠ address := by
  intro same
  obtain ⟨t, found, _⟩ := live
  rw [same, free] at found
  cases found

theorem live_newTimer (s : TimerQueue) (address : Nat) (when_ : TimeStamp) (interval : Int)
    (repeats : Bool) (free : s.heap address = none) (p : ActiveTimer) :
    (s.newTimer address when_ interval repeats).Live p ↔
      p = (address, s.numCreated + 1) ∨ s.Live p := by
  have here : (s.newTimer address when_ interval repeats).heap address =
      some ⟨when_, interval, repeats, s.numCreated + 1⟩ := Function.update_self ..
  by_cases same : p.1 = address
  · constructor
    · rintro ⟨t, found, sequence⟩
      rw [same, here, Option.some.injEq] at found
      rw [← found] at sequence
      exact Or.inl (Prod.ext same sequence.symm)
    · rintro (rfl | old)
      · exact ⟨_, here, rfl⟩
      · exact absurd same (old.not_free free)
  · have other : p ≠ (address, s.numCreated + 1) := fun equal => same (congrArg Prod.fst equal)
    have there : (s.newTimer address when_ interval repeats).heap p.1 = s.heap p.1 :=
      Function.update_of_ne same ..
    simp only [Live, there, other, false_or]

/-- A Timer made by its constructor is new, and held by the call that is queued. -/
theorem newTimer_owned (s : TimerQueue) (held : List ActiveTimer) (owned : Owned s held)
    (address : Nat) (when_ : TimeStamp) (interval : Int) (repeats : Bool)
    (free : s.heap address = none) (bounded : address < UINTPTR_MAX) :
    Owned (s.newTimer address when_ interval repeats)
      ((address, s.numCreated + 1) :: held) := by
  have live := live_newTimer s address when_ interval repeats free
  have fresh : ¬ s.Live (address, s.numCreated + 1) := fun old => old.not_free free rfl
  have count : (s.newTimer address when_ interval repeats).numCreated = s.numCreated + 1 := by
    simp [numCreated, newTimer]
  constructor
  · intro p
    rw [live p, owned.live p, List.mem_cons, or_assoc]
    rfl
  · refine List.nodup_cons.mpr ⟨?_, owned.nodup⟩
    intro member
    exact fresh ((owned.live _).mpr (Or.inl member))
  · intro p member
    rw [List.mem_cons, not_or]
    refine ⟨?_, owned.apart p member⟩
    rintro rfl
    exact fresh ((owned.live _).mpr (Or.inr member))
  · intro p found
    show 0 < p.2 ∧ (s.created ++ [address])[p.2 - 1]? = some p.1
    rcases (live p).mp found with rfl | old
    · exact ⟨Nat.succ_pos _, List.getElem?_concat_length⟩
    · obtain ⟨positive, at_⟩ := owned.numbered p old
      obtain ⟨below, _⟩ := List.getElem?_eq_some_iff.mp at_
      exact ⟨positive, by rw [List.getElem?_append_left below, at_]⟩
  · intro p found
    rcases (live p).mp found with rfl | old
    · exact bounded
    · exact owned.addressed p old
  · apply owned.keyed_kept (s.newTimer address when_ interval repeats) rfl rfl
    intro p member
    have alive : s.Live p := (owned.live p).mpr (Or.inr member)
    exact deref_of_heap (Function.update_of_ne (alive.not_free free) ..)
  · exact owned.sizes
  · exact owned.once
  · intro q
    rw [show (s.newTimer address when_ interval repeats).deleted = s.deleted from rfl,
      owned.gone q, count]
    constructor
    · rintro ⟨⟨positive, bound⟩, dead⟩
      refine ⟨⟨positive, by omega⟩, fun a found => ?_⟩
      rcases (live _).mp found with same | old
      · have new : q = s.numCreated + 1 := congrArg Prod.snd same
        omega
      · exact dead a old
    · rintro ⟨⟨positive, bound⟩, dead⟩
      refine ⟨⟨positive, ?_⟩, fun a old => dead a ((live _).mpr (Or.inr old))⟩
      by_contra more
      have new : q = s.numCreated + 1 := by omega
      rw [new] at dead
      exact dead address ((live _).mpr (Or.inl rfl))

theorem key_inj {e f : TimeStamp} {p q : ActiveTimer} : key e p = key f q ↔ e = f ∧ p.1 = q.1 := by
  rw [key, key, toLex_inj, Prod.mk.injEq]

/-- What insert leaves behind. -/
def entered (s : TimerQueue) (p : ActiveTimer) (expiration : TimeStamp) : TimerQueue :=
  { s with
    timers := s.timers.insert (key expiration p) p.2
    activeTimers := Insert.insert p s.activeTimers }

/-- A pointer held outside the sets is in neither of them. -/
theorem Owned.absent {s : TimerQueue} {held : List ActiveTimer} (owned : Owned s held)
    {p : ActiveTimer} (member : p ∈ held) (e : TimeStamp) :
    p ∉ s.activeTimers ∧ s.timers.find (key e p) = none := by
  have outside : p ∉ s.activeTimers := fun active => owned.apart p active member
  refine ⟨outside, ?_⟩
  cases found : s.timers.find (key e p) with
  | none => rfl
  | some q =>
      have active : (p.1, q) ∈ s.activeTimers := ((owned.keyed e (p.1, q)).mp found).1
      have same : (p.1, q) = p :=
        Live.unique ((owned.live _).mpr (Or.inr active)) ((owned.live p).mpr (Or.inl member)) rfl
      rw [same] at active
      exact absurd active outside

theorem Owned.entered {s : TimerQueue} {held : List ActiveTimer} (owned : Owned s held)
    {p : ActiveTimer} (member : p ∈ held) {t : Timer} (found : s.deref p = some t) :
    Owned (s.entered p t.expiration) (held.erase p) := by
  obtain ⟨outside, missing⟩ := owned.absent member t.expiration
  constructor
  · intro q
    show s.Live q ↔ q ∈ held.erase p ∨ q ∈ Insert.insert p s.activeTimers
    rw [owned.live q, owned.nodup.mem_erase_iff, Finset.mem_insert]
    by_cases same : q = p
    · simp [same, member]
    · simp [same]
  · exact owned.nodup.erase p
  · intro q active
    rw [owned.nodup.mem_erase_iff]
    rcases Finset.mem_insert.mp active with rfl | old
    · exact fun both => both.1 rfl
    · exact fun both => owned.apart q old both.2
  · exact owned.numbered
  · exact owned.addressed
  · intro e q
    show (s.timers.insert (key t.expiration p) p.2).find (key e q) = some q.2 ↔
      q ∈ Insert.insert p s.activeTimers ∧ ∃ u, s.deref q = some u ∧ u.expiration = e
    by_cases same : key t.expiration p = key e q
    · obtain ⟨when_, address⟩ := key_inj.mp same
      rw [← same, OrderedMap.find_insert_self, Option.some.injEq]
      constructor
      · intro sequence
        obtain rfl : p = q := Prod.ext address sequence
        exact ⟨Finset.mem_insert_self p _, t, found, when_⟩
      · rintro ⟨_, u, there, _⟩
        rw [Live.unique (Live.of_deref found) (Live.of_deref there) address]
    · rw [OrderedMap.find_insert_of_ne _ _ same, owned.keyed e q, Finset.mem_insert]
      constructor
      · rintro ⟨active, there⟩
        exact ⟨Or.inr active, there⟩
      · rintro ⟨rfl | active, u, there, when_⟩
        · rw [found, Option.some.injEq] at there
          exact absurd (by rw [there, when_]) same
        · exact ⟨active, u, there, when_⟩
  · show (s.timers.insert (key t.expiration p) p.2).size = (Insert.insert p s.activeTimers).card
    rw [OrderedMap.size_insert _ _ _ missing, Finset.card_insert_of_notMem outside, owned.sizes]
  · exact owned.once
  · exact owned.gone

theorem Owned.sizesAgree {s : TimerQueue} {held : List ActiveTimer} (owned : Owned s held) :
    s.sizesAgree = true :=
  decide_eq_true owned.sizes

/-- Whether a time lies ahead of all timers. -/
def earlier (s : TimerQueue) (expiration : TimeStamp) : Bool :=
  match s.timers.first with
  | none => true
  | some first => expiration < (ofLex first.1).1

/-- insert of a pointer that is held passes its assertions. -/
theorem insert_spec (s : TimerQueue) (held : List ActiveTimer) (owned : Owned s held)
    (p : ActiveTimer) (member : p ∈ held) (t : Timer) (found : s.deref p = some t) :
    s.insert p = some (s.entered p t.expiration, s.earlier t.expiration) := by
  obtain ⟨outside, missing⟩ := owned.absent member t.expiration
  have after := (owned.entered member found).sizesAgree
  unfold insert
  rw [if_pos owned.sizesAgree, found, Option.bind_some]
  simp only [missing, outside, not_false_eq_true, and_self, ↓reduceIte]
  exact if_pos after

/-- Taken out of both sets, a Timer is held by whoever took it. -/
theorem Owned.left {s : TimerQueue} {held : List ActiveTimer} (owned : Owned s held)
    {p : ActiveTimer} (active : p ∈ s.activeTimers) {t : Timer} (found : s.deref p = some t) :
    Owned { s with
      timers := s.timers.erase (key t.expiration p)
      activeTimers := s.activeTimers.erase p } (p :: held) := by
  have stored : s.timers.find (key t.expiration p) = some p.2 :=
    (owned.keyed t.expiration p).mpr ⟨active, t, found, rfl⟩
  constructor
  · intro q
    show s.Live q ↔ q ∈ p :: held ∨ q ∈ s.activeTimers.erase p
    rw [owned.live q, List.mem_cons, Finset.mem_erase]
    by_cases same : q = p
    · simp [same, active]
    · simp [same]
  · exact List.nodup_cons.mpr ⟨owned.apart p active, owned.nodup⟩
  · intro q member
    obtain ⟨different, old⟩ := Finset.mem_erase.mp member
    rw [List.mem_cons, not_or]
    exact ⟨different, owned.apart q old⟩
  · exact owned.numbered
  · exact owned.addressed
  · intro e q
    show (s.timers.erase (key t.expiration p)).find (key e q) = some q.2 ↔
      q ∈ s.activeTimers.erase p ∧ ∃ u, s.deref q = some u ∧ u.expiration = e
    by_cases same : key t.expiration p = key e q
    · rw [← same, OrderedMap.find_erase_self]
      constructor
      · intro impossible
        cases impossible
      · rintro ⟨member, u, there, _⟩
        obtain ⟨different, _⟩ := Finset.mem_erase.mp member
        exact absurd (Live.unique (Live.of_deref there) (Live.of_deref found)
          (key_inj.mp same).2.symm) different
    · rw [OrderedMap.find_erase_of_ne _ same, owned.keyed e q, Finset.mem_erase]
      constructor
      · rintro ⟨old, u, there, when_⟩
        refine ⟨⟨?_, old⟩, u, there, when_⟩
        rintro rfl
        rw [found, Option.some.injEq] at there
        exact same (by rw [there, when_])
      · rintro ⟨⟨_, old⟩, there⟩
        exact ⟨old, there⟩
  · show (s.timers.erase (key t.expiration p)).size = (s.activeTimers.erase p).card
    have fewer := OrderedMap.size_erase s.timers _ _ stored
    have positive := Finset.card_pos.mpr ⟨p, active⟩
    rw [Finset.card_erase_of_mem active, ← owned.sizes]
    omega
  · exact owned.once
  · exact owned.gone

/-- What delete leaves behind. -/
def freed (s : TimerQueue) (p : ActiveTimer) : TimerQueue :=
  { s with
    heap := Function.update s.heap p.1 none
    deleted := s.deleted ++ [p.2] }

theorem live_freed (s : TimerQueue) {p : ActiveTimer} (live : s.Live p) (q : ActiveTimer) :
    (s.freed p).Live q ↔ s.Live q ∧ q ≠ p := by
  by_cases same : q.1 = p.1
  · have nothing : (s.freed p).heap q.1 = none := by
      rw [same]
      exact Function.update_self ..
    constructor
    · rintro ⟨t, found, _⟩
      rw [nothing] at found
      cases found
    · rintro ⟨old, different⟩
      exact absurd (Live.unique old live same) different
  · have kept : (s.freed p).heap q.1 = s.heap q.1 := Function.update_of_ne same ..
    have different : q ≠ p := fun equal => same (congrArg Prod.fst equal)
    simp only [Live, kept, different, ne_eq, not_false_eq_true, and_true]

/-- Whoever holds a Timer may delete it. -/
theorem Owned.freed {s : TimerQueue} {held : List ActiveTimer} (owned : Owned s held)
    {p : ActiveTimer} (member : p ∈ held) : Owned (s.freed p) (held.erase p) := by
  have alive : s.Live p := (owned.live p).mpr (Or.inl member)
  have live := live_freed s alive
  have outside : p ∉ s.activeTimers := fun active => owned.apart p active member
  constructor
  · intro q
    show (s.freed p).Live q ↔ q ∈ held.erase p ∨ q ∈ s.activeTimers
    rw [live q, owned.live q, owned.nodup.mem_erase_iff]
    by_cases same : q = p
    · simp [same, outside]
    · simp [same]
  · exact owned.nodup.erase p
  · intro q active held
    exact owned.apart q active (List.mem_of_mem_erase held)
  · intro q found
    exact owned.numbered q ((live q).mp found).1
  · intro q found
    exact owned.addressed q ((live q).mp found).1
  · apply owned.keyed_kept (s.freed p) rfl rfl
    intro q active
    exact deref_of_heap (Function.update_of_ne (owned.elsewhere member active) ..)
  · exact owned.sizes
  · show (s.deleted ++ [p.2]).Nodup
    have new : p.2 ∉ s.deleted := fun old => ((owned.gone p.2).mp old).2 p.1 alive
    exact List.nodup_append.mpr ⟨owned.once, List.nodup_singleton _, by
      intro q old r last same
      rw [same, List.mem_singleton.mp last] at old
      exact new old⟩
  · intro q
    show q ∈ s.deleted ++ [p.2] ↔
      (0 < q ∧ q ≤ s.numCreated) ∧ ∀ a, ¬ (s.freed p).Live (a, q)
    rw [List.mem_append, List.mem_singleton, owned.gone q]
    constructor
    · rintro (⟨bounds, dead⟩ | rfl)
      · exact ⟨bounds, fun a found => dead a ((live _).mp found).1⟩
      · refine ⟨⟨(owned.numbered p alive).1, owned.sequence_le alive⟩, fun a found => ?_⟩
        obtain ⟨old, different⟩ := (live _).mp found
        exact different (owned.address_unique old alive rfl)
    · rintro ⟨bounds, dead⟩
      by_cases same : q = p.2
      · exact Or.inr same
      · refine Or.inl ⟨bounds, fun a old => dead a ((live _).mpr ⟨old, ?_⟩)⟩
        intro equal
        exact same (congrArg Prod.snd equal)

theorem delete_spec (s : TimerQueue) (p : ActiveTimer) (live : s.Live p) :
    s.delete p = some (s.freed p) := by
  obtain ⟨t, found⟩ := live.deref
  rw [delete, found, Option.map_some]
  rfl

/-- A new expiration for a Timer that is held. -/
def restarted (s : TimerQueue) (p : ActiveTimer) (t : Timer) : TimerQueue :=
  { s with heap := Function.update s.heap p.1 (some t) }

theorem deref_restarted (s : TimerQueue) (p : ActiveTimer) (t : Timer) (same : t.sequence = p.2) :
    (s.restarted p t).deref p = some t := by
  rw [deref_eq_some]
  exact ⟨Function.update_self .., same⟩

theorem live_restarted (s : TimerQueue) {p : ActiveTimer} (live : s.Live p) (t : Timer)
    (same : t.sequence = p.2) (q : ActiveTimer) : (s.restarted p t).Live q ↔ s.Live q := by
  by_cases address : q.1 = p.1
  · constructor
    · intro found
      rw [Live.unique found (Live.of_deref (deref_restarted s p t same)) address]
      exact live
    · intro found
      rw [Live.unique found live address]
      exact Live.of_deref (deref_restarted s p t same)
  · rw [Live, Live, show (s.restarted p t).heap q.1 = s.heap q.1 from
      Function.update_of_ne address ..]

theorem Owned.restarted {s : TimerQueue} {held : List ActiveTimer} (owned : Owned s held)
    {p : ActiveTimer} (member : p ∈ held) (t : Timer) (same : t.sequence = p.2) :
    Owned (s.restarted p t) held := by
  have alive : s.Live p := (owned.live p).mpr (Or.inl member)
  have live := live_restarted s alive t same
  constructor
  · intro q
    rw [live q]
    exact owned.live q
  · exact owned.nodup
  · exact owned.apart
  · intro q found
    exact owned.numbered q ((live q).mp found)
  · intro q found
    exact owned.addressed q ((live q).mp found)
  · apply owned.keyed_kept (s.restarted p t) rfl rfl
    intro q active
    exact deref_of_heap (Function.update_of_ne (owned.elsewhere member active) ..)
  · exact owned.sizes
  · exact owned.once
  · intro q
    rw [show (s.restarted p t).deleted = s.deleted from rfl, owned.gone q]
    simp only [live, show (s.restarted p t).numCreated = s.numCreated from rfl]

/-- restart changes the Timer and not whom the pointer was made for. -/
theorem Owned.restart {s : TimerQueue} {held : List ActiveTimer} (owned : Owned s held)
    {p : ActiveTimer} (member : p ∈ held) {t : Timer} (found : s.deref p = some t)
    (now : TimeStamp) : Owned (s.restarted p (t.restart now)) held ∧
      (s.restarted p (t.restart now)).deref p = some (t.restart now) := by
  have same : (t.restart now).sequence = p.2 := by
    rw [Timer.restart_sequence, ((deref_eq_some s p t).mp found).2]
  exact ⟨owned.restarted member _ same, deref_restarted s p _ same⟩

theorem eraseActive_spec (s : TimerQueue) (entries : List Entry)
    (active : ∀ entry ∈ entries, entry.timer ∈ s.activeTimers)
    (live : ∀ entry ∈ entries, s.Live entry.timer)
    (nodup : (entries.map Entry.timer).Nodup) :
    s.eraseActive entries =
      some { s with activeTimers := s.activeTimers \ (entries.map Entry.timer).toFinset } := by
  induction entries generalizing s with
  | nil => simp [eraseActive]
  | cons entry rest ih =>
      rw [List.map_cons, List.nodup_cons] at nodup
      obtain ⟨fresh, others⟩ := nodup
      obtain ⟨t, found⟩ := (live entry List.mem_cons_self).deref
      unfold eraseActive
      rw [found, Option.bind_some, if_pos (active entry List.mem_cons_self), ih _ _ _ others]
      · congr 2
        ext q
        simp only [Finset.mem_sdiff, Finset.mem_erase, List.mem_toFinset, List.map_cons,
          List.mem_cons, not_or]
        tauto
      · intro other member
        refine Finset.mem_erase.mpr ⟨?_, active other (List.mem_cons_of_mem entry member)⟩
        intro same
        exact fresh (same ▸ List.mem_map_of_mem member)
      · intro other member
        exact live other (List.mem_cons_of_mem entry member)

/-- What getExpired returns. -/
def due (s : TimerQueue) (now : TimeStamp) : List Entry :=
  (s.timers.below (toLex (now, UINTPTR_MAX))).map fun e =>
    (⟨(ofLex e.1).1, (ofLex e.1).2, e.2⟩ : Entry)

theorem key_lt_sentry (e now : TimeStamp) (p : ActiveTimer) (bounded : p.1 < UINTPTR_MAX) :
    key e p < toLex (now, UINTPTR_MAX) ↔ e ≤ now := by
  rw [key, Prod.Lex.toLex_lt_toLex]
  constructor
  · rintro (less | ⟨same, _⟩)
    · exact le_of_lt less
    · exact le_of_eq same
  · intro bound
    rcases lt_or_eq_of_le bound with less | same
    · exact Or.inl less
    · exact Or.inr ⟨same, bounded⟩

/-- The timers that are due are those of the sets whose time has come. -/
theorem Owned.mem_due {s : TimerQueue} {held : List ActiveTimer} (owned : Owned s held)
    (now : TimeStamp) (entry : Entry) : entry ∈ s.due now ↔ entry.timer ∈ s.activeTimers ∧
      (∃ t, s.deref entry.timer = some t ∧ t.expiration = entry.expiration) ∧
      entry.expiration ≤ now := by
  have listed : entry ∈ s.due now ↔
      s.timers.find (key entry.expiration entry.timer) = some entry.timer.2 ∧
        key entry.expiration entry.timer < toLex (now, UINTPTR_MAX) := by
    rw [due, List.mem_map]
    constructor
    · rintro ⟨e, member, rfl⟩
      exact (OrderedMap.mem_below _ _ e).mp member
    · intro both
      exact ⟨(key entry.expiration entry.timer, entry.timer.2),
        (OrderedMap.mem_below _ _ _).mpr both, rfl⟩
  rw [listed, owned.keyed, and_assoc]
  apply and_congr_right
  intro active
  rw [key_lt_sentry _ _ _ (owned.addressed _ ((owned.live _).mpr (Or.inr active)))]

theorem Owned.due_nodup {s : TimerQueue} {held : List ActiveTimer} (owned : Owned s held)
    (now : TimeStamp) : ((s.due now).map Entry.timer).Nodup := by
  have expiration : ∀ e ∈ s.timers.below (toLex (now, UINTPTR_MAX)),
      ∃ t, s.deref ((ofLex e.1).2, e.2) = some t ∧ t.expiration = (ofLex e.1).1 := by
    intro e member
    have stored := ((OrderedMap.mem_below _ _ e).mp member).1
    exact ((owned.keyed (ofLex e.1).1 ((ofLex e.1).2, e.2)).mp stored).2
  rw [due, List.map_map, List.Nodup, List.pairwise_map]
  apply (OrderedMap.below_sorted s.timers _).imp_of_mem
  intro e f left right less same
  obtain ⟨t, first, when_⟩ := expiration e left
  obtain ⟨u, second, then_⟩ := expiration f right
  replace same : ((ofLex e.1).2, e.2) = ((ofLex f.1).2, f.2) := same
  rw [same, second, Option.some.injEq] at first
  rw [← first] at when_
  have keys : ofLex e.1 = ofLex f.1 :=
    Prod.ext (when_.symm.trans then_) (congrArg Prod.fst same)
  exact absurd (ofLex_inj.mp keys) (ne_of_lt less)

/-- The sets without the timers that are due. -/
def detached (s : TimerQueue) (now : TimeStamp) : TimerQueue :=
  { s with
    timers := s.timers.dropBelow (toLex (now, UINTPTR_MAX))
    activeTimers := s.activeTimers \ ((s.due now).map Entry.timer).toFinset }

theorem Owned.mem_detached {s : TimerQueue} {held : List ActiveTimer} (owned : Owned s held)
    (now : TimeStamp) (p : ActiveTimer) : p ∈ (s.due now).map Entry.timer ↔
      p ∈ s.activeTimers ∧ ∃ t, s.deref p = some t ∧ t.expiration ≤ now := by
  rw [List.mem_map]
  constructor
  · rintro ⟨entry, member, rfl⟩
    obtain ⟨active, ⟨t, found, when_⟩, bound⟩ := (owned.mem_due now entry).mp member
    exact ⟨active, t, found, when_ ▸ bound⟩
  · rintro ⟨active, t, found, bound⟩
    exact ⟨⟨t.expiration, p⟩, (owned.mem_due now _).mpr ⟨active, ⟨t, found, rfl⟩, bound⟩, rfl⟩

/-- The timers that are due change hands: handleRead has them. -/
theorem Owned.detached {s : TimerQueue} {held : List ActiveTimer} (owned : Owned s held)
    (now : TimeStamp) : Owned (s.detached now) ((s.due now).map Entry.timer ++ held) := by
  have due := owned.mem_detached now
  have nodup := owned.due_nodup now
  constructor
  · intro p
    show s.Live p ↔ p ∈ (s.due now).map Entry.timer ++ held ∨
      p ∈ s.activeTimers \ ((s.due now).map Entry.timer).toFinset
    rw [owned.live p, List.mem_append, Finset.mem_sdiff, List.mem_toFinset]
    have active : p ∈ (s.due now).map Entry.timer → p ∈ s.activeTimers := fun member =>
      ((due p).mp member).1
    tauto
  · apply List.nodup_append.mpr ⟨nodup, owned.nodup, ?_⟩
    rintro p left q right rfl
    exact owned.apart p ((due p).mp left).1 right
  · intro p member
    obtain ⟨active, later⟩ := Finset.mem_sdiff.mp member
    rw [List.mem_append, not_or]
    exact ⟨fun early => later (List.mem_toFinset.mpr early), owned.apart p active⟩
  · exact owned.numbered
  · exact owned.addressed
  · intro e p
    show (s.timers.dropBelow _).find (key e p) = some p.2 ↔
      p ∈ s.activeTimers \ ((s.due now).map Entry.timer).toFinset ∧
        ∃ t, s.deref p = some t ∧ t.expiration = e
    rw [OrderedMap.find_dropBelow, owned.keyed e p, Finset.mem_sdiff, List.mem_toFinset, due p]
    constructor
    · rintro ⟨⟨active, t, found, when_⟩, notBelow⟩
      refine ⟨⟨active, ?_⟩, t, found, when_⟩
      rintro ⟨_, u, there, bound⟩
      rw [found, Option.some.injEq] at there
      rw [key_lt_sentry _ _ _ (owned.addressed p (Live.of_deref found)), ← when_, there] at notBelow
      exact notBelow bound
    · rintro ⟨⟨active, later⟩, t, found, when_⟩
      refine ⟨⟨active, t, found, when_⟩, ?_⟩
      rw [key_lt_sentry _ _ _ (owned.addressed p (Live.of_deref found))]
      intro bound
      exact later ⟨active, t, found, when_ ▸ bound⟩
  · show (s.timers.dropBelow _).size =
      (s.activeTimers \ ((s.due now).map Entry.timer).toFinset).card
    have subset : ((s.due now).map Entry.timer).toFinset ⊆ s.activeTimers := by
      intro p member
      exact ((due p).mp (List.mem_toFinset.mp member)).1
    have whole := OrderedMap.size_dropBelow s.timers (toLex (now, UINTPTR_MAX))
    rw [Finset.card_sdiff_of_subset subset, List.toFinset_card_of_nodup nodup, List.length_map,
      TimerQueue.due, List.length_map, ← owned.sizes]
    omega
  · exact owned.once
  · exact owned.gone

theorem getExpired_spec (s : TimerQueue) (held : List ActiveTimer) (owned : Owned s held)
    (now : TimeStamp) : s.getExpired now = some (s.detached now, s.due now) := by
  have after := owned.detached now
  have asserted : ∀ first ∈ (s.timers.dropBelow (toLex (now, UINTPTR_MAX))).first,
      now < (ofLex first.1).1 := by
    intro first head
    have stored := OrderedMap.find_of_first _ first head
    obtain ⟨present, notBelow⟩ := (OrderedMap.find_dropBelow _ _ _ _).mp stored
    obtain ⟨active, _⟩ := (owned.keyed (ofLex first.1).1 ((ofLex first.1).2, first.2)).mp present
    have bounded := owned.addressed _ ((owned.live _).mpr (Or.inr active))
    have above := (key_lt_sentry (ofLex first.1).1 now _ bounded).not.mp notBelow
    exact not_le.mp above
  have erased := eraseActive_spec
    { s with timers := s.timers.dropBelow (toLex (now, UINTPTR_MAX)) } (s.due now)
    (fun entry member => ((owned.mem_due now entry).mp member).1)
    (fun entry member => (owned.live _).mpr (Or.inr ((owned.mem_due now entry).mp member).1))
    (owned.due_nodup now)
  unfold getExpired
  rw [if_pos owned.sizesAgree]
  simp only
  rw [if_pos asserted]
  show ((eraseActive _ (s.due now)).bind _) = _
  rw [erased, Option.bind_some]
  exact if_pos after.sizesAgree

end TimerQueue
end Tundra
