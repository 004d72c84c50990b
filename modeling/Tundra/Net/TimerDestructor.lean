import Tundra.Net.TimerThreads

set_option autoImplicit false

/- The destructor of TimerQueue deletes the Timers of timers_. It does not see those whose
addTimerInLoop is still among the functors of the loop, or was never queued. -/
namespace Tundra

open Library

namespace TimerQueue

/-- The pointers of timers_, in its order. -/
def listed (s : TimerQueue) : List ActiveTimer :=
  s.timers.entries.map fun entry => ((ofLex entry.1).2, entry.2)

/-- The loop of ~TimerQueue. -/
def destroy (s : TimerQueue) : Option TimerQueue := s.listed.foldlM delete s

theorem Owned.mem_listed {s : TimerQueue} {held : List ActiveTimer} (owned : Owned s held)
    (p : ActiveTimer) : p ∈ s.listed ↔ p ∈ s.activeTimers := by
  rw [listed, List.mem_map]
  constructor
  · rintro ⟨entry, member, rfl⟩
    have stored := (OrderedMap.find_eq_some_iff s.timers entry.1 entry.2).mpr member
    exact ((owned.keyed (ofLex entry.1).1 ((ofLex entry.1).2, entry.2)).mp stored).1
  · intro active
    obtain ⟨t, found⟩ := owned.active_live active
    have stored := (owned.keyed t.expiration p).mpr ⟨active, t, found, rfl⟩
    exact ⟨_, (OrderedMap.find_eq_some_iff _ _ _).mp stored, rfl⟩

/-- timers_ may hold a pointer under two expirations only if the Timer has both. -/
theorem Owned.listed_nodup {s : TimerQueue} {held : List ActiveTimer} (owned : Owned s held) :
    s.listed.Nodup := by
  have expiration : ∀ e ∈ s.timers.entries,
      ∃ t, s.deref ((ofLex e.1).2, e.2) = some t ∧ t.expiration = (ofLex e.1).1 := by
    intro e member
    have stored := (OrderedMap.find_eq_some_iff s.timers e.1 e.2).mpr member
    exact ((owned.keyed (ofLex e.1).1 ((ofLex e.1).2, e.2)).mp stored).2
  rw [listed, List.Nodup, List.pairwise_map]
  apply s.timers.sorted.imp_of_mem
  intro e f left right less same
  obtain ⟨t, first, when_⟩ := expiration e left
  obtain ⟨u, second, then_⟩ := expiration f right
  rw [same, second, Option.some.injEq] at first
  rw [← first] at when_
  have keys : ofLex e.1 = ofLex f.1 :=
    Prod.ext (when_.symm.trans then_) (congrArg Prod.fst same)
  exact absurd (ofLex_inj.mp keys) (ne_of_lt less)

/-- The Timers of a list without repetitions are deleted one by one. -/
theorem foldlM_delete (list : List ActiveTimer) (s : TimerQueue) (nodup : list.Nodup)
    (alive : ∀ p ∈ list, s.Live p) : ∃ t, list.foldlM delete s = some t ∧
      t.deleted = s.deleted ++ list.map Prod.snd ∧ ∀ q, t.Live q ↔ s.Live q ∧ q ∉ list := by
  induction list generalizing s with
  | nil => exact ⟨s, rfl, (List.append_nil _).symm, fun q => (by simp)⟩
  | cons p rest ih =>
      obtain ⟨outside, others⟩ := List.nodup_cons.mp nodup
      have live : s.Live p := alive p List.mem_cons_self
      have still : ∀ q ∈ rest, (s.freed p).Live q := by
        intro q member
        refine (live_freed s live q).mpr ⟨alive q (List.mem_cons_of_mem _ member), ?_⟩
        rintro rfl
        exact outside member
      obtain ⟨t, done, deleted, left⟩ := ih (s.freed p) others still
      refine ⟨t, ?_, ?_, ?_⟩
      · rw [List.foldlM_cons, delete_spec s p live]
        exact done
      · rw [deleted, freed, List.append_assoc, List.singleton_append, List.map_cons]
      · intro q
        rw [left q, live_freed s live q, List.mem_cons, not_or, and_assoc]

theorem Invariant.destroyed {s : TimerQueue} (inv : Invariant s) : ∃ t, s.destroy = some t ∧
    t.deleted = s.deleted ++ s.listed.map Prod.snd ∧ ∀ q, t.Live q ↔ q ∈ s.held := by
  have alive : ∀ p ∈ s.listed, s.Live p := by
    intro p member
    exact (inv.owned.live p).mpr (Or.inr ((inv.owned.mem_listed p).mp member))
  obtain ⟨t, done, deleted, left⟩ := foldlM_delete s.listed s inv.owned.listed_nodup alive
  refine ⟨t, done, deleted, fun q => ?_⟩
  rw [left q, inv.owned.mem_listed q, inv.owned.live q]
  constructor
  · rintro ⟨held | active, inactive⟩
    · exact held
    · exact absurd active inactive
  · intro held
    exact ⟨Or.inl held, fun active => inv.owned.apart q active held⟩

/-- What was deleted before is not in the sets any more. -/
theorem Invariant.deletions_nodup {s : TimerQueue} (inv : Invariant s) :
    (s.deleted ++ s.listed.map Prod.snd).Nodup := by
  have live : ∀ p ∈ s.listed, s.Live p := by
    intro p member
    exact (inv.owned.live p).mpr (Or.inr ((inv.owned.mem_listed p).mp member))
  refine List.nodup_append.mpr ⟨inv.owned.once, ?_, ?_⟩
  · refine inv.owned.listed_nodup.map_on ?_
    intro p left q right same
    exact inv.owned.address_unique (live p left) (live q right) same
  · rintro sequence gone other member rfl
    obtain ⟨p, here, same⟩ := List.mem_map.mp member
    obtain rfl : p.2 = sequence := same
    exact ((inv.owned.gone p.2).mp gone).2 p.1 (live p here)

end TimerQueue

namespace TimerThreads

variable {τ : Type*} [DecidableEq τ]

/-- When the loop is over and its TimerQueue is destroyed, every Timer that was ever made has
been deleted once, but for those whose addTimerInLoop has not been run: these leak. -/
theorem timerQueue_destroyed (labels : List (Label τ)) (s : State τ)
    (run : (machine τ).Run (created τ) labels s) (idle : s.timers.phase = .idle) :
    ∃ q, s.timers.destroy = some q ∧ q.deleted.Nodup ∧
      ∀ p, s.timers.Issued p → (p.2 ∈ q.deleted ↔
        (∀ c, s.calls c ≠ .made p) ∧ .addTimerInLoop p ∉ s.queue) := by
  have inv := run_threads run
  have timers := inv.books.timers
  obtain ⟨q, done, deleted, _⟩ := timers.destroyed
  refine ⟨q, done, deleted ▸ timers.deletions_nodup, ?_⟩
  intro p issued
  have held : s.timers.held = s.timers.waiting := by
    rw [TimerQueue.held, idle]
    exact List.append_nil _
  have known : p.2 ∈ s.timers.deleted ↔ ¬ s.timers.Live p := by
    rw [timers.owned.gone p.2]
    constructor
    · exact fun gone => gone.2 p.1
    · intro dead
      refine ⟨⟨issued.1, issued.bound⟩, fun address live => dead ?_⟩
      exact issued.unique timers live rfl ▸ live
  have active : p.2 ∈ s.timers.listed.map Prod.snd ↔ p ∈ s.timers.activeTimers := by
    rw [← timers.owned.mem_listed p, List.mem_map]
    constructor
    · rintro ⟨r, member, same⟩
      have live := (timers.owned.live r).mpr (Or.inr ((timers.owned.mem_listed r).mp member))
      exact issued.unique timers live same ▸ member
    · exact fun member => ⟨p, member, rfl⟩
  have waiting := inv.books.waiting p
  have apart : p ∈ s.timers.activeTimers → p ∉ s.timers.waiting := fun member =>
    held ▸ timers.owned.apart p member
  rw [deleted, List.mem_append, known, active, timers.owned.live p, held]
  rw [← not_exists, ← not_or, ← waiting]
  tauto

/-- One thread's timer is in the sets, another one's only among the functors. -/
theorem timerQueue_destroyed_leaks : ∃ s q, (machine Bool).Run (created Bool)
      [.newTimer (some true) 100 5 0 false, .runInLoop (some true), .swap, .runFunctor,
        .newTimer (some false) 200 6 0 false, .runInLoop (some false)] s ∧
    s.timers.destroy = some q ∧ 1 ∈ q.deleted ∧ 2 ∉ q.deleted := by
  obtain ⟨s, run, seen⟩ := Machine.exists_run_of_play (machine Bool) (created Bool)
    [.newTimer (some true) 100 5 0 false, .runInLoop (some true), .swap, .runFunctor,
      .newTimer (some false) 200 6 0 false, .runInLoop (some false)]
    (fun s => (s.timers.phase, s.timers.created, s.queue,
      s.calls none, s.calls (some true), s.calls (some false)))
    (.idle, [100, 200], [.addTimerInLoop (200, 2)], .outside, .handed (100, 1), .handed (200, 2))
    (by decide +kernel)
  simp only [Prod.mk.injEq] at seen
  obtain ⟨idle, made, queue, own, first, second⟩ := seen
  obtain ⟨q, done, _, deleted⟩ := timerQueue_destroyed _ s run idle
  have added : s.timers.Issued (100, 1) := by
    rw [TimerQueue.Issued, made]
    decide
  have queued : s.timers.Issued (200, 2) := by
    rw [TimerQueue.Issued, made]
    decide
  refine ⟨s, q, run, done, (deleted (100, 1) added).mpr ⟨?_, ?_⟩, ?_⟩
  · rintro (_ | _ | _) call
    · cases own.symm.trans call
    · cases second.symm.trans call
    · cases first.symm.trans call
  · rw [queue]
    decide
  · intro gone
    refine ((deleted (200, 2) queued).mp gone).2 ?_
    rw [queue]
    exact List.mem_cons_self

end TimerThreads
end Tundra
