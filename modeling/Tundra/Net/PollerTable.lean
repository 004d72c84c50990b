import Mathlib.Data.Int.Order.Basic
import Tundra.Net.Poller

set_option autoImplicit false

/- The three tables of a Poller agree: the vector of pollfds, the map from descriptors
to channels and the index in each channel. -/
namespace Tundra.Poller

open Library

variable {κ : Type*}

def Registered (p : Poller κ) (c : κ) : Prop := p.channels.find (p.channel c).fd = some c

/-- The pollfd at the index that the channel keeps. -/
def slot (p : Poller κ) (c : κ) : Option Pollfd := p.pollfds[(p.channel c).index.toNat]?

/-- The pollfd is the channel's: ignored only when the channel has no interest. -/
structure Holds (channel : Channel) (pfd : Pollfd) : Prop where
  fd : pfd.fd = channel.fd ∨ pfd.fd = ignored channel.fd
  idle : pfd.fd = ignored channel.fd → channel.isNoneEvent = true
  events : pfd.events = channel.events

structure Consistent (p : Poller κ) : Prop where
  descriptors : ∀ c, 0 ≤ (p.channel c).fd
  keys : ∀ fd c, p.channels.find fd = some c → (p.channel c).fd = fd
  sizes : p.pollfds.length = p.channels.size
  indices : ∀ c, p.Registered c → 0 ≤ (p.channel c).index
  table : SlotTable p.pollfds p.Registered fun c => (p.channel c).index.toNat
  slots : ∀ c, p.Registered c → ∃ pfd, p.slot c = some pfd ∧ Holds (p.channel c).toChannel pfd

/-- What an operation on `c` leaves alone. -/
structure Frame (p : Poller κ) (c : κ) (q : Poller κ) : Prop where
  channel : ∀ d, d ≠ c → (q.channel d).toChannel = (p.channel d).toChannel
  registered : ∀ d, d ≠ c → (q.Registered d ↔ p.Registered d)
  slot : ∀ d, d ≠ c → p.Registered d → q.slot d = p.slot d
  index : ∀ d, d ≠ c → ¬ p.Registered d → (q.channel d).index = (p.channel d).index

theorem Frame.refl (p : Poller κ) (c : κ) : Frame p c p :=
  ⟨fun _ _ => rfl, fun _ _ => Iff.rfl, fun _ _ _ => rfl, fun _ _ _ => rfl⟩

theorem Frame.trans {p q r : Poller κ} {c : κ} (first : Frame p c q) (second : Frame q c r) :
    Frame p c r := by
  constructor
  · intro d different
    rw [second.channel d different, first.channel d different]
  · intro d different
    rw [second.registered d different, first.registered d different]
  · intro d different here
    rw [second.slot d different ((first.registered d different).mpr here),
      first.slot d different here]
  · intro d different absent
    rw [second.index d different fun here => absent ((first.registered d different).mp here),
      first.index d different absent]

/-- The descriptors are constants, so registration depends on the map alone. -/
theorem registered_insert (p q : Poller κ) (c : κ) (fds : ∀ d, (q.channel d).fd = (p.channel d).fd)
    (absent : p.channels.find (p.channel c).fd = none)
    (inserted : q.channels = p.channels.insert (p.channel c).fd c) (d : κ) :
    q.Registered d ↔ d = c ∨ p.Registered d := by
  unfold Registered
  rw [inserted, fds d]
  by_cases key : (p.channel c).fd = (p.channel d).fd
  · rw [← key, OrderedMap.find_insert_self, absent, Option.some.injEq]
    constructor
    · intro equal
      exact Or.inl equal.symm
    · rintro (equal | impossible)
      · exact equal.symm
      · cases impossible
  · rw [OrderedMap.find_insert_of_ne _ _ key]
    constructor
    · exact Or.inr
    · rintro (rfl | here)
      · exact absurd rfl key
      · exact here

theorem registered_erase (p q : Poller κ) (c : κ) (fds : ∀ d, (q.channel d).fd = (p.channel d).fd)
    (here : p.Registered c) (erased : q.channels = p.channels.erase (p.channel c).fd) (d : κ) :
    q.Registered d ↔ p.Registered d ∧ d ≠ c := by
  unfold Registered at here ⊢
  rw [erased, fds d]
  by_cases key : (p.channel c).fd = (p.channel d).fd
  · rw [← key, OrderedMap.find_erase_self, here, Option.some.injEq]
    constructor
    · intro impossible
      cases impossible
    · rintro ⟨equal, different⟩
      exact absurd equal.symm different
  · rw [OrderedMap.find_erase_of_ne _ key]
    constructor
    · intro there
      refine ⟨there, ?_⟩
      rintro rfl
      exact key rfl
    · exact fun there => there.1

theorem keys_of_channels (p q : Poller κ) (fds : ∀ d, (q.channel d).fd = (p.channel d).fd)
    (inv : p.Consistent)
    (sub : ∀ fd d, q.channels.find fd = some d → p.channels.find fd = some d ∨
      (p.channel d).fd = fd) (fd : Int) (d : κ) (found : q.channels.find fd = some d) :
    (q.channel d).fd = fd := by
  rw [fds d]
  rcases sub fd d found with before | new
  · exact inv.keys fd d before
  · exact new

theorem create_consistent (fds : κ → Int) (nonneg : ∀ c, 0 ≤ fds c) :
    (create fun c => PollChannel.create (fds c)).Consistent := by
  have none : ∀ c, ¬ (create fun c => PollChannel.create (fds c)).Registered c :=
    fun c here => by cases here
  constructor
  · exact nonneg
  · intro fd c found
    cases found
  · rfl
  · intro c here
    exact absurd here (none c)
  · exact SlotTable.empty none
  · intro c here
    exact absurd here (none c)

/-- The descriptor read off a pollfd, negated or not, is the channel's. -/
theorem Holds.decoded {channel : Channel} {pfd : Pollfd} (holds : Holds channel pfd)
    (nonneg : 0 ≤ channel.fd) : (if pfd.fd < 0 then -pfd.fd - 1 else pfd.fd) = channel.fd := by
  rcases holds.fd with plain | negated
  · rw [plain, if_neg (by omega)]
  · rw [negated, ignored, if_pos (by omega)]
    omega

theorem plain_ne_ignored (fd : Int) : 0 ≤ fd → fd ≠ ignored fd := by
  unfold ignored
  omega

/-- When an inner pollfd is given up, the last one belongs to another channel, which is
found under the descriptor read off it. -/
theorem last_owner (p : Poller κ) (c : κ) (inv : p.Consistent) (here : p.Registered c)
    (inner : (p.channel c).index + 1 ≠ p.pollfds.length) :
    ∃ m back, p.Registered m ∧ m ≠ c ∧ (p.channel m).index.toNat + 1 = p.pollfds.length ∧
      p.pollfds.getLast? = some back ∧ p.slot m = some back ∧
      (p.channels.erase (p.channel c).fd).find
        (if back.fd < 0 then -back.fd - 1 else back.fd) = some m := by
  have bound := inv.table.inside c here
  have nonneg := inv.indices c here
  obtain ⟨m, owner, at_⟩ := inv.table.covered (p.pollfds.length - 1) (by omega)
  obtain ⟨back, there, holds⟩ := inv.slots m owner
  have apart : m ≠ c := by
    rintro rfl
    omega
  have keys : (p.channel c).fd ≠ (p.channel m).fd := by
    intro equal
    rw [Registered, ← equal, here] at owner
    exact apart (Option.some.inj owner).symm
  refine ⟨m, back, owner, apart, by omega, ?_, there, ?_⟩
  · rw [List.getLast?_eq_getElem?, ← at_]
    exact there
  · rw [holds.decoded (inv.descriptors m), OrderedMap.find_erase_of_ne _ keys]
    exact owner

variable [DecidableEq κ]

/-- What a completed Channel::update has done. -/
theorem update_cases (p : Poller κ) (c : κ) (changed : Channel)
    (same : changed.fd = (p.channel c).fd) (q : Poller κ) (done : p.update c changed = some q) :
    ((p.channel c).index < 0 ∧ p.channels.find changed.fd = none ∧
      q.pollfds = p.pollfds ++ [⟨changed.fd, changed.events, 0⟩] ∧
      q.channels = p.channels.insert changed.fd c ∧
      q.channel = Function.update p.channel c
        ⟨changed, p.pollfds.length, (p.channel c).revents⟩) ∨
    (0 ≤ (p.channel c).index ∧ p.Registered c ∧
      q.pollfds = p.pollfds.set (p.channel c).index.toNat
        ⟨if changed.isNoneEvent then ignored changed.fd else changed.fd, changed.events, 0⟩ ∧
      q.channels = p.channels ∧
      q.channel = Function.update p.channel c
        ⟨changed, (p.channel c).index, (p.channel c).revents⟩) := by
  simp only [update, updateChannel, setChannel, Function.update_self, Function.update_idem] at done
  split at done
  · rename_i new
    split at done
    · rename_i absent
      cases done
      exact Or.inl ⟨new, absent, rfl, rfl, rfl⟩
    · cases done
  · rename_i old
    split at done
    · rename_i found
      obtain ⟨pfd, _, checked⟩ := Option.bind_eq_some_iff.mp done
      split at checked
      · cases checked
        refine Or.inr ⟨by omega, ?_, rfl, rfl, rfl⟩
        rw [Registered, ← same]
        exact found
      · cases checked
    · cases done

/-- One channel is replaced by another one for the same descriptor. -/
theorem channel_replaced (p q : Poller κ) (c : κ) (new : PollChannel)
    (same : new.fd = (p.channel c).fd) (channel : q.channel = Function.update p.channel c new) :
    q.channel c = new ∧ (∀ d, d ≠ c → q.channel d = p.channel d) ∧
      ∀ d, (q.channel d).fd = (p.channel d).fd := by
  have self : q.channel c = new := by rw [channel, Function.update_self]
  have others : ∀ d, d ≠ c → q.channel d = p.channel d := by
    intro d different
    rw [channel, Function.update_of_ne different]
  refine ⟨self, others, fun d => ?_⟩
  by_cases equal : d = c
  · rw [equal, self, same]
  · rw [others d equal]

/-- What is common to both ways of updating a channel: it is registered afterwards, its
pollfd is its own, and the others have theirs. -/
theorem updated_spec (p q : Poller κ) (c : κ) (new : PollChannel) (pfd : Pollfd)
    (same : new.fd = (p.channel c).fd) (inv : p.Consistent)
    (channel : q.channel = Function.update p.channel c new) (nonneg : 0 ≤ new.index)
    (registered : ∀ d, q.Registered d ↔ d = c ∨ p.Registered d)
    (keys : ∀ fd d, q.channels.find fd = some d →
      p.channels.find fd = some d ∨ (p.channel d).fd = fd)
    (sizes : q.pollfds.length = q.channels.size)
    (table : SlotTable q.pollfds q.Registered fun d => (q.channel d).index.toNat)
    (slotSelf : q.slot c = some pfd) (holds : Holds new.toChannel pfd)
    (slotOther : ∀ d, d ≠ c → p.Registered d → q.slot d = p.slot d) :
    q.Consistent ∧ Frame p c q ∧ q.Registered c ∧ q.slot c = some pfd := by
  obtain ⟨self, others, fds⟩ := channel_replaced p q c new same channel
  have before : ∀ d, d ≠ c → q.Registered d → p.Registered d := by
    intro d different here
    exact ((registered d).mp here).resolve_left different
  refine ⟨?_, ⟨?_, ?_, slotOther, ?_⟩, (registered c).mpr (Or.inl rfl), slotSelf⟩
  · constructor
    · intro d
      rw [fds d]
      exact inv.descriptors d
    · exact keys_of_channels p q fds inv keys
    · exact sizes
    · intro d here
      by_cases equal : d = c
      · rw [equal, self]
        exact nonneg
      · rw [others d equal]
        exact inv.indices d (before d equal here)
    · exact table
    · intro d here
      by_cases equal : d = c
      · rw [equal, self]
        exact ⟨pfd, slotSelf, holds⟩
      · rw [slotOther d equal (before d equal here), others d equal]
        exact inv.slots d (before d equal here)
  · intro d different
    rw [others d different]
  · intro d different
    exact ⟨before d different, fun here => (registered d).mpr (Or.inr here)⟩
  · intro d different _
    rw [others d different]

/-- A channel that is registered for the first time: its pollfd has the plain descriptor,
with or without events. -/
theorem register_spec (p q : Poller κ) (c : κ) (changed : Channel) (revents : Int)
    (same : changed.fd = (p.channel c).fd) (inv : p.Consistent)
    (absent : p.channels.find changed.fd = none)
    (pollfds : q.pollfds = p.pollfds ++ [⟨changed.fd, changed.events, 0⟩])
    (channels : q.channels = p.channels.insert changed.fd c)
    (channel : q.channel = Function.update p.channel c ⟨changed, p.pollfds.length, revents⟩) :
    q.Consistent ∧ Frame p c q ∧ q.Registered c ∧
      q.slot c = some ⟨changed.fd, changed.events, 0⟩ := by
  obtain ⟨self, others, fds⟩ := channel_replaced p q c _ same channel
  rw [same] at absent
  have registered := registered_insert p q c fds absent (by rw [channels, same])
  have outside : ¬ p.Registered c := by
    rw [Registered, absent]
    exact fun none => by cases none
  have positive : 0 ≤ changed.fd := by
    rw [same]
    exact inv.descriptors c
  apply updated_spec p q c _ _ same inv channel (Int.natCast_nonneg _) registered
  · intro fd d found
    rw [channels] at found
    by_cases key : changed.fd = fd
    · rw [key, OrderedMap.find_insert_self, Option.some.injEq] at found
      right
      rw [← found, ← same, key]
    · rw [OrderedMap.find_insert_of_ne _ _ key] at found
      exact Or.inl found
  · rw [pollfds, channels, List.length_append, List.length_singleton, inv.sizes,
      OrderedMap.size_insert _ _ _ (by rw [same, absent])]
  · rw [pollfds]
    apply (inv.table.push c outside _).congr registered
    intro d here
    by_cases equal : d = c
    · rw [equal, self, Function.update_self]
      exact Int.toNat_natCast _
    · rw [others d equal, Function.update_of_ne equal]
  · rw [slot, self, pollfds]
    exact List.getElem?_concat_length
  · exact ⟨Or.inl rfl, fun plain => absurd plain (plain_ne_ignored _ positive), rfl⟩
  · intro d different here
    rw [slot, slot, others d different, pollfds]
    exact List.getElem?_append_left (inv.table.inside d here)

/-- A channel that is registered already: its pollfd is negated when it has no interest. -/
theorem rewrite_spec (p q : Poller κ) (c : κ) (changed : Channel) (revents : Int)
    (same : changed.fd = (p.channel c).fd) (inv : p.Consistent) (here : p.Registered c)
    (pollfds : q.pollfds = p.pollfds.set (p.channel c).index.toNat
      ⟨if changed.isNoneEvent then ignored changed.fd else changed.fd, changed.events, 0⟩)
    (channels : q.channels = p.channels)
    (channel : q.channel = Function.update p.channel c ⟨changed, (p.channel c).index, revents⟩) :
    q.Consistent ∧ Frame p c q ∧ q.Registered c ∧
      q.slot c = some ⟨if changed.isNoneEvent then ignored changed.fd else changed.fd,
        changed.events, 0⟩ := by
  obtain ⟨self, others, fds⟩ := channel_replaced p q c _ same channel
  have index : ∀ d, (q.channel d).index = (p.channel d).index := by
    intro d
    by_cases equal : d = c
    · rw [equal, self]
    · rw [others d equal]
  have registered : ∀ d, q.Registered d ↔ p.Registered d := by
    intro d
    rw [Registered, Registered, channels, fds d]
  have positive : 0 ≤ changed.fd := by
    rw [same]
    exact inv.descriptors c
  apply updated_spec p q c _ _ same inv channel (inv.indices c here)
  · intro d
    rw [registered d]
    constructor
    · exact Or.inr
    · rintro (rfl | there)
      · exact here
      · exact there
  · intro fd d found
    rw [channels] at found
    exact Or.inl found
  · rw [channels, ← inv.sizes, pollfds, List.length_set]
  · rw [pollfds]
    exact (inv.table.set _ _).congr registered fun d _ => by rw [index d]
  · rw [slot, index c, pollfds]
    exact List.getElem?_set_self (inv.table.inside c here)
  · by_cases none : changed.isNoneEvent = true
    · exact ⟨Or.inr (if_pos none), fun _ => none, rfl⟩
    · refine ⟨Or.inl (if_neg none), fun plain => ?_, rfl⟩
      rw [if_neg none] at plain
      exact absurd plain (plain_ne_ignored _ positive)
  · intro d different there
    rw [slot, slot, index d, pollfds]
    exact inv.table.set_slot c d here there different _

/-- The channel after Channel::remove. -/
def detached (p : Poller κ) (c : κ) : PollChannel := { p.channel c with addedToLoop := false }

/-- What a completed Channel::remove has done: the last pollfd has been dropped, or it
stands where the one removed was. -/
theorem remove_cases (p : Poller κ) (c : κ) (q : Poller κ) (done : p.remove c = some q) :
    p.Registered c ∧ (∃ pfd, p.slot c = some pfd ∧ pfd.fd = ignored (p.channel c).fd) ∧
    q.channels = p.channels.erase (p.channel c).fd ∧
    (((p.channel c).index + 1 = p.pollfds.length ∧ q.pollfds = p.pollfds.dropLast ∧
      q.channel = Function.update p.channel c (p.detached c)) ∨
    ((p.channel c).index + 1 ≠ p.pollfds.length ∧ ∃ back moved,
      p.pollfds.getLast? = some back ∧
      (p.channels.erase (p.channel c).fd).find
        (if back.fd < 0 then -back.fd - 1 else back.fd) = some moved ∧
      q.pollfds = (p.pollfds.set (p.channel c).index.toNat back).dropLast ∧
      q.channel = Function.update (Function.update p.channel c (p.detached c)) moved
        { Function.update p.channel c (p.detached c) moved with
          index := (p.channel c).index })) := by
  unfold remove Channel.remove at done
  obtain ⟨channel, detached, removed⟩ := Option.bind_eq_some_iff.mp done
  split at detached
  · cases detached
    simp only [removeChannel, setChannel, Function.update_self] at removed
    split at removed
    · rename_i checked
      obtain ⟨pfd, there, found⟩ := Option.bind_eq_some_iff.mp removed
      split at found
      · rename_i negated
        split at found
        · rename_i last
          cases found
          exact ⟨checked.1, ⟨pfd, there, negated.1⟩, rfl, Or.inl ⟨last, rfl, rfl⟩⟩
        · rename_i inner
          obtain ⟨back, end_, mapped⟩ := Option.bind_eq_some_iff.mp found
          obtain ⟨moved, at_, result⟩ := Option.map_eq_some_iff.mp mapped
          cases result
          exact ⟨checked.1, ⟨pfd, there, negated.1⟩, rfl,
            Or.inr ⟨inner, back, moved, end_, at_, rfl, rfl⟩⟩
      · cases found
    · cases removed
  · cases detached

/-- What is common to both ways of giving up a pollfd. -/
theorem erased_spec (p q : Poller κ) (c : κ) (inv : p.Consistent) (here : p.Registered c)
    (channels : q.channels = p.channels.erase (p.channel c).fd)
    (self : q.channel c = p.detached c)
    (others : ∀ d, d ≠ c → (q.channel d).toChannel = (p.channel d).toChannel)
    (length : q.pollfds.length + 1 = p.pollfds.length)
    (indices : ∀ d, d ≠ c → p.Registered d → 0 ≤ (q.channel d).index)
    (table : SlotTable q.pollfds (fun d => p.Registered d ∧ d ≠ c) fun d =>
      (q.channel d).index.toNat)
    (slots : ∀ d, d ≠ c → p.Registered d → q.slot d = p.slot d)
    (index : ∀ d, d ≠ c → ¬ p.Registered d → (q.channel d).index = (p.channel d).index) :
    q.Consistent ∧ Frame p c q ∧ ¬ q.Registered c ∧ q.channel c = p.detached c := by
  have fds : ∀ d, (q.channel d).fd = (p.channel d).fd := by
    intro d
    by_cases equal : d = c
    · rw [equal, self]
      rfl
    · rw [others d equal]
  have registered := registered_erase p q c fds here channels
  refine ⟨?_, ⟨others, ?_, slots, index⟩, fun there => ((registered c).mp there).2 rfl,
    self⟩
  · constructor
    · intro d
      rw [fds d]
      exact inv.descriptors d
    · apply keys_of_channels p q fds inv
      intro fd d found
      rw [channels] at found
      by_cases key : (p.channel c).fd = fd
      · rw [key, OrderedMap.find_erase_self] at found
        cases found
      · rw [OrderedMap.find_erase_of_ne _ key] at found
        exact Or.inl found
    · have erased := OrderedMap.size_erase p.channels _ c here
      rw [← channels, ← inv.sizes] at erased
      omega
    · intro d there
      obtain ⟨before, different⟩ := (registered d).mp there
      exact indices d different before
    · exact table.congr registered fun d _ => rfl
    · intro d there
      obtain ⟨before, different⟩ := (registered d).mp there
      rw [slots d different before, others d different]
      exact inv.slots d before
  · intro d different
    rw [registered d]
    exact ⟨fun both => both.1, fun before => ⟨before, different⟩⟩

/-- The last pollfd is given up: no index changes. -/
theorem dropLast_spec (p q : Poller κ) (c : κ) (inv : p.Consistent) (here : p.Registered c)
    (last : (p.channel c).index + 1 = p.pollfds.length)
    (channels : q.channels = p.channels.erase (p.channel c).fd)
    (pollfds : q.pollfds = p.pollfds.dropLast)
    (channel : q.channel = Function.update p.channel c (p.detached c)) :
    (q.Consistent ∧ Frame p c q ∧ ¬ q.Registered c ∧ q.channel c = p.detached c) ∧
      ∀ d, (q.channel d).index = (p.channel d).index := by
  have others : ∀ d, d ≠ c → q.channel d = p.channel d := by
    intro d different
    rw [channel, Function.update_of_ne different]
  have self : q.channel c = p.detached c := by rw [channel, Function.update_self]
  have index : ∀ d, (q.channel d).index = (p.channel d).index := by
    intro d
    by_cases equal : d = c
    · rw [equal, self]
      rfl
    · rw [others d equal]
  have nonneg := inv.indices c here
  have place : (p.channel c).index.toNat + 1 = p.pollfds.length := by omega
  refine ⟨erased_spec p q c inv here channels self
    (fun d different => by rw [others d different]) ?_ ?_ ?_ ?_ (fun d _ _ => index d), index⟩
  · rw [pollfds, List.length_dropLast]
    omega
  · intro d _ there
    rw [index d]
    exact inv.indices d there
  · rw [pollfds]
    exact (inv.table.pop c here place).congr (fun _ => Iff.rfl) fun d _ => by rw [index d]
  · intro d different there
    rw [slot, slot, index d, pollfds]
    exact inv.table.pop_slot c d here there different place

/-- An inner pollfd is given up: the channel of the last one, and no other, changes its
index. -/
theorem swap_spec (p q : Poller κ) (c : κ) (inv : p.Consistent) (here : p.Registered c)
    (inner : (p.channel c).index + 1 ≠ p.pollfds.length) (back : Pollfd) (moved : κ)
    (end_ : p.pollfds.getLast? = some back)
    (found : (p.channels.erase (p.channel c).fd).find
      (if back.fd < 0 then -back.fd - 1 else back.fd) = some moved)
    (channels : q.channels = p.channels.erase (p.channel c).fd)
    (pollfds : q.pollfds = (p.pollfds.set (p.channel c).index.toNat back).dropLast)
    (channel : q.channel = Function.update (Function.update p.channel c (p.detached c)) moved
      { Function.update p.channel c (p.detached c) moved with index := (p.channel c).index }) :
    (q.Consistent ∧ Frame p c q ∧ ¬ q.Registered c ∧ q.channel c = p.detached c) ∧
      p.Registered moved ∧ moved ≠ c ∧
      (p.channel moved).index + 1 = p.pollfds.length ∧
      (q.channel moved).index = (p.channel c).index ∧
      ∀ d, d ≠ moved → (q.channel d).index = (p.channel d).index := by
  have bound := inv.table.inside c here
  have nonneg := inv.indices c here
  obtain ⟨m, back', owner, apart, last, end', content, found'⟩ := last_owner p c inv here inner
  obtain rfl : back = back' := Option.some.inj (end_.symm.trans end')
  obtain rfl : moved = m := Option.some.inj (found.symm.trans found')
  have atMoved : q.channel moved = { p.channel moved with index := (p.channel c).index } := by
    rw [channel, Function.update_self, Function.update_of_ne apart]
  have self : q.channel c = p.detached c := by
    rw [channel, Function.update_of_ne (Ne.symm apart), Function.update_self]
  have others : ∀ d, d ≠ c → d ≠ moved → q.channel d = p.channel d := by
    intro d different other
    rw [channel, Function.update_of_ne other, Function.update_of_ne different]
  have index : ∀ d, d ≠ moved → (q.channel d).index = (p.channel d).index := by
    intro d other
    by_cases equal : d = c
    · rw [equal, self]
      rfl
    · rw [others d equal other]
  have places : (fun d => (q.channel d).index.toNat) =
      Function.update (fun d => (p.channel d).index.toNat) moved (p.channel c).index.toNat := by
    funext d
    by_cases other : d = moved
    · rw [other, Function.update_self, atMoved]
    · rw [Function.update_of_ne other, index d other]
  refine ⟨erased_spec p q c inv here channels self ?_ ?_ ?_ ?_ ?_ ?_, owner, apart, ?_,
    by rw [atMoved], index⟩
  · intro d different
    by_cases other : d = moved
    · rw [other, atMoved]
    · rw [others d different other]
  · rw [pollfds, List.length_dropLast, List.length_set]
    omega
  · intro d _ before
    by_cases other : d = moved
    · rw [other, atMoved]
      exact nonneg
    · rw [index d other]
      exact inv.indices d before
  · rw [places, pollfds]
    exact inv.table.swapPop c moved here owner last apart back
  · intro d different before
    have placed : (q.channel d).index.toNat = Function.update
        (fun d => (p.channel d).index.toNat) moved (p.channel c).index.toNat d :=
      congrFun places d
    rw [slot, slot, placed, pollfds]
    exact inv.table.swapPop_slot c moved d here owner last before different apart back content
  · intro d _ absent
    apply index d
    rintro rfl
    exact absent owner
  · have := inv.indices moved owner
    omega

theorem update_spec (p : Poller κ) (c : κ) (changed : Channel)
    (same : changed.fd = (p.channel c).fd) (inv : p.Consistent) (q : Poller κ)
    (done : p.update c changed = some q) :
    q.Consistent ∧ Frame p c q ∧ q.Registered c ∧ (q.channel c).toChannel = changed ∧
      ∃ fd, q.slot c = some ⟨fd, changed.events, 0⟩ ∧
        (p.Registered c → changed.isNoneEvent = true → fd = ignored changed.fd) := by
  rcases update_cases p c changed same q done with
    ⟨_, absent, pollfds, channels, channel⟩ | ⟨_, here, pollfds, channels, channel⟩
  · obtain ⟨consistent, frame, registered, slot⟩ :=
      register_spec p q c changed _ same inv absent pollfds channels channel
    refine ⟨consistent, frame, registered, by rw [channel, Function.update_self], _, slot, ?_⟩
    intro before
    rw [Registered, ← same, absent] at before
    cases before
  · obtain ⟨consistent, frame, registered, slot⟩ :=
      rewrite_spec p q c changed _ same inv here pollfds channels channel
    refine ⟨consistent, frame, registered, by rw [channel, Function.update_self], _, slot, ?_⟩
    intro _ none
    exact if_pos none

theorem remove_spec (p : Poller κ) (c : κ) (inv : p.Consistent) (q : Poller κ)
    (done : p.remove c = some q) :
    (q.Consistent ∧ Frame p c q ∧ ¬ q.Registered c ∧ q.channel c = p.detached c) ∧
    (((p.channel c).index + 1 = p.pollfds.length ∧
      ∀ d, (q.channel d).index = (p.channel d).index) ∨
    ∃ moved, p.Registered moved ∧ moved ≠ c ∧
      (p.channel moved).index + 1 = p.pollfds.length ∧
      (q.channel moved).index = (p.channel c).index ∧
      ∀ d, d ≠ moved → (q.channel d).index = (p.channel d).index) := by
  obtain ⟨here, _, channels, ⟨last, pollfds, channel⟩ |
    ⟨inner, back, moved, end_, found, pollfds, channel⟩⟩ := remove_cases p c q done
  · obtain ⟨spec, indices⟩ := dropLast_spec p q c inv here last channels pollfds channel
    exact ⟨spec, Or.inl ⟨last, indices⟩⟩
  · obtain ⟨spec, rest⟩ :=
      swap_spec p q c inv here inner back moved end_ found channels pollfds channel
    exact ⟨spec, Or.inr ⟨moved, rest⟩⟩

/-- Channel::update completes for a channel that is registered, and for one that never
was and whose descriptor is not in use. -/
theorem update_total (p : Poller κ) (c : κ) (changed : Channel)
    (same : changed.fd = (p.channel c).fd) (inv : p.Consistent)
    (ready : p.Registered c ∨
      ((p.channel c).index < 0 ∧ p.channels.find (p.channel c).fd = none)) :
    ∃ q, p.update c changed = some q := by
  simp only [update, updateChannel, setChannel, Function.update_self, same]
  rcases ready with here | ⟨new, absent⟩
  · have index := inv.indices c here
    obtain ⟨pfd, there, holds⟩ := inv.slots c here
    unfold Registered at here
    rw [if_neg (by omega), if_pos here]
    rw [slot] at there
    rw [there, Option.bind_some, if_pos holds.fd]
    exact ⟨_, rfl⟩
  · rw [if_pos new, if_pos absent]
    exact ⟨_, rfl⟩

/-- Channel::remove completes for a registered channel without interest, once its pollfd
has been negated. -/
theorem remove_total (p : Poller κ) (c : κ) (inv : p.Consistent) (here : p.Registered c)
    (none : (p.channel c).isNoneEvent = true) (pfd : Pollfd) (there : p.slot c = some pfd)
    (negated : pfd.fd = ignored (p.channel c).fd) : ∃ q, p.remove c = some q := by
  have index := inv.indices c here
  obtain ⟨pfd', there', holds⟩ := inv.slots c here
  rw [there, Option.some.injEq] at there'
  rw [← there'] at holds
  have checked : p.channels.find (p.channel c).fd = some c ∧
      (p.channel c).isNoneEvent = true ∧ 0 ≤ (p.channel c).index := ⟨here, none, index⟩
  have matching : pfd.fd = ignored (p.channel c).fd ∧ pfd.events = (p.channel c).events :=
    ⟨negated, holds.events⟩
  have quiet : Channel.isNoneEvent
      { (p.channel c).toChannel with addedToLoop := false } = true := none
  rw [slot] at there
  simp only [remove, Channel.remove, none, ↓reduceIte, Option.bind_some, removeChannel, setChannel,
    Function.update_self, checked.1, quiet, index, and_self, there, matching]
  by_cases last : (p.channel c).index + 1 = p.pollfds.length
  · rw [if_pos last]
    exact ⟨_, rfl⟩
  · obtain ⟨m, back, _, _, _, end_, _, found⟩ := last_owner p c inv here last
    rw [if_neg last, end_, Option.bind_some, found, Option.map_some]
    exact ⟨_, rfl⟩

/-- Every operation but remove stores an interest set and calls Channel::update. -/
theorem apply_eq_update (p : Poller κ) (c : κ) (op : ChannelOp) (changes : op ≠ .remove) :
    ∃ events, p.apply c op = p.update c ((p.channel c).toChannel.update events) := by
  cases op with
  | enableReading => exact ⟨{ (p.channel c).events with read := true }, rfl⟩
  | disableReading => exact ⟨{ (p.channel c).events with read := false }, rfl⟩
  | enableWriting => exact ⟨{ (p.channel c).events with write := true }, rfl⟩
  | disableWriting => exact ⟨{ (p.channel c).events with write := false }, rfl⟩
  | disableAll => exact ⟨Events.kNoneEvent, rfl⟩
  | remove => exact absurd rfl changes

/-- What every operation but remove leaves behind. -/
theorem interest_spec (p : Poller κ) (c : κ) (op : ChannelOp) (changes : op ≠ .remove)
    (inv : p.Consistent) (q : Poller κ) (done : p.apply c op = some q) :
    q.Consistent ∧ Frame p c q ∧ q.Registered c ∧ (q.channel c).fd = (p.channel c).fd := by
  obtain ⟨events, same⟩ := apply_eq_update p c op changes
  rw [same] at done
  obtain ⟨consistent, frame, registered, channel, _⟩ :=
    update_spec p c ((p.channel c).toChannel.update events) rfl inv q done
  exact ⟨consistent, frame, registered, by rw [channel]; rfl⟩

theorem interest_total (p : Poller κ) (c : κ) (op : ChannelOp) (changes : op ≠ .remove)
    (inv : p.Consistent)
    (ready : p.Registered c ∨
      ((p.channel c).index < 0 ∧ p.channels.find (p.channel c).fd = none)) :
    ∃ q, p.apply c op = some q := by
  obtain ⟨events, same⟩ := apply_eq_update p c op changes
  rw [same]
  exact update_total p c ((p.channel c).toChannel.update events) rfl inv ready

theorem apply_spec (p : Poller κ) (c : κ) (op : ChannelOp) (inv : p.Consistent) (q : Poller κ)
    (done : p.apply c op = some q) : q.Consistent ∧ Frame p c q := by
  by_cases removes : op = .remove
  · subst removes
    obtain ⟨⟨consistent, frame, _⟩, _⟩ := remove_spec p c inv q done
    exact ⟨consistent, frame⟩
  · obtain ⟨consistent, frame, _⟩ := interest_spec p c op removes inv q done
    exact ⟨consistent, frame⟩

theorem machine_consistent (fds : κ → Int) (nonneg : ∀ c, 0 ≤ fds c)
    (labels : List (κ × ChannelOp)) (p : Poller κ)
    (run : machine.Run (create fun c => PollChannel.create (fds c)) labels p) : p.Consistent := by
  apply run.invariant _ (create_consistent fds nonneg)
  intro s label t inv _ moved
  exact (apply_spec s label.1 label.2 inv t moved).1

/-- The tables of a Poller agree after any operations on any channels. The pollfds and
the channels registered correspond one to one, and a removal changes the index of the
channel whose pollfd it moves and of no other. -/
theorem poller_tables_agree (fds : κ → Int) (nonneg : ∀ c, 0 ≤ fds c)
    (labels : List (κ × ChannelOp)) (p : Poller κ)
    (run : machine.Run (create fun c => PollChannel.create (fds c)) labels p) :
    p.pollfds.length = p.channels.size ∧
      (∀ fd c, p.channels.find fd = some c → (p.channel c).fd = fd ∧
        0 ≤ (p.channel c).index ∧ (p.channel c).index < p.pollfds.length ∧
        ∃ pfd, p.pollfds[(p.channel c).index.toNat]? = some pfd ∧
          (pfd.fd = fd ∨ pfd.fd = -fd - 1) ∧
          (pfd.fd = -fd - 1 → (p.channel c).isNoneEvent = true) ∧
          pfd.events = (p.channel c).events) ∧
      (∀ c d, p.Registered c → p.Registered d →
        (p.channel c).index = (p.channel d).index → c = d) ∧
      (∀ i, i < p.pollfds.length → ∃ c, p.Registered c ∧ (p.channel c).index = i) ∧
      ∀ c q, p.apply c .remove = some q →
        ((p.channel c).index + 1 = p.pollfds.length ∧
          ∀ d, (q.channel d).index = (p.channel d).index) ∨
        ∃ moved, p.Registered moved ∧ moved ≠ c ∧
          (p.channel moved).index + 1 = p.pollfds.length ∧
          (q.channel moved).index = (p.channel c).index ∧
          ∀ d, d ≠ moved → (q.channel d).index = (p.channel d).index := by
  have inv := machine_consistent fds nonneg labels p run
  refine ⟨inv.sizes, ?_, ?_, ?_, ?_⟩
  · intro fd c found
    have key := inv.keys fd c found
    have here : p.Registered c := by rwa [Registered, key]
    have index := inv.indices c here
    have inside := inv.table.inside c here
    obtain ⟨pfd, there, holds⟩ := inv.slots c here
    rw [← key]
    exact ⟨rfl, index, by omega, pfd, there, holds.fd, holds.idle, holds.events⟩
  · intro c d left right equal
    exact inv.table.distinct c d left right (by rw [equal])
  · intro i below
    obtain ⟨c, here, at_⟩ := inv.table.covered i below
    have index := inv.indices c here
    exact ⟨c, here, by omega⟩
  · intro c q done
    exact (remove_spec p c inv q done).2

instance decidableEnabled (p : Poller κ) (label : κ × ChannelOp) :
    Decidable (machine.enabled p label) :=
  inferInstanceAs (Decidable True)

/-- Three channels, the first of which is removed: the last one takes its place. -/
theorem poller_tables_agree_swap :
    ∃ p : Poller Nat, machine.Run (create fun c => PollChannel.create (Int.ofNat c))
        [(5, .enableReading), (6, .enableReading), (7, .enableWriting), (5, .disableAll),
          (5, .remove)] p ∧
      (p.channel 7).index = 0 ∧ p.pollfds.length = p.channels.size := by
  obtain ⟨p, run, index⟩ := Machine.exists_run_of_play machine
    (create fun c => PollChannel.create (Int.ofNat c))
    [(5, .enableReading), (6, .enableReading), (7, .enableWriting), (5, .disableAll),
      (5, .remove)] (fun p => (p.channel 7).index) 0 (by decide +kernel)
  exact ⟨p, run, index, (poller_tables_agree Int.ofNat Int.natCast_nonneg _ p run).1⟩

end Tundra.Poller
