import Tundra.Net.PollerTable

set_option autoImplicit false

/- What a Poller does with the answer of poll. The scan over the pollfds stops after as many
hits as poll has counted, and finds the channels through their descriptors. -/
namespace Tundra.Poller

open Library

variable {κ : Type*}

/-- What the kernel may answer: an entry for each pollfd, nothing for those it is to ignore,
and the number of the others that it has something for. -/
structure Answers (p : Poller κ) (numEvents : Int) (revents : List Int) : Prop where
  length : revents.length = p.pollfds.length
  nonneg : ∀ r ∈ revents, 0 ≤ r
  ignored : ∀ pair ∈ p.pollfds.zip revents, pair.1.fd < 0 → pair.2 = 0
  count : numEvents = revents.countP (· ≠ 0)

/-- The channel of a pollfd that poll has something for. -/
def deliver (p : Poller κ) (pfd : Pollfd) : Option κ :=
  if 0 < pfd.revents then p.channels.find pfd.fd else none

/-- The full filter of the pollfds, in their order. -/
def delivered (p : Poller κ) : List κ := p.pollfds.filterMap p.deliver

inductive PollLabel (κ : Type*)
  | apply (c : κ) (op : ChannelOp)
  | poll (answer : Option (Int × List Int))

def PollLabel.Enabled (p : Poller κ) : PollLabel κ → Prop
  | .apply _ _ | .poll none => True
  | .poll (some (numEvents, revents)) => Answers p numEvents revents

section Answer

variable {p q : Poller κ} {numEvents : Int} {revents : List Int}

theorem deliver_of_pos {pfd : Pollfd} (positive : 0 < pfd.revents) :
    p.deliver pfd = p.channels.find pfd.fd :=
  if_pos positive

theorem filterMap_deliver_nil (pfds : List Pollfd)
    (none : pfds.countP (fun pfd => 0 < pfd.revents) = 0) : pfds.filterMap p.deliver = [] := by
  rw [List.filterMap_eq_nil_iff]
  intro pfd member
  have quiet := List.countP_eq_zero.mp none pfd member
  exact if_neg (by simpa using quiet)

theorem answered_at (i : Nat) (pfd : Pollfd) :
    (p.answered revents).pollfds[i]? = some pfd ↔ ∃ old r, p.pollfds[i]? = some old ∧
      revents[i]? = some r ∧ { old with revents := r } = pfd :=
  List.getElem?_zipWith_eq_some

theorem answered_length (answers : Answers p numEvents revents) :
    (p.answered revents).pollfds.length = p.pollfds.length := by
  rw [answered, List.length_zipWith, answers.length, Nat.min_self]

/-- Every pollfd is that of a registered channel. -/
theorem Consistent.owner (inv : p.Consistent) (i : Nat) (pfd : Pollfd)
    (there : p.pollfds[i]? = some pfd) :
    ∃ c, p.Registered c ∧ (p.channel c).index.toNat = i ∧ Holds (p.channel c).toChannel pfd := by
  obtain ⟨c, here, at_⟩ := inv.table.covered i (List.getElem?_eq_some_iff.mp there).1
  obtain ⟨own, placed, holds⟩ := inv.slots c here
  rw [slot, at_, there, Option.some.injEq] at placed
  exact ⟨c, here, at_, placed ▸ holds⟩

/-- A pollfd that is not ignored leads to its own channel. -/
theorem Consistent.find_owner (inv : p.Consistent) (i : Nat) (pfd : Pollfd)
    (there : p.pollfds[i]? = some pfd) (plain : 0 ≤ pfd.fd) :
    ∃ c, p.channels.find pfd.fd = some c ∧ (p.channel c).fd = pfd.fd ∧
      (p.channel c).index.toNat = i := by
  obtain ⟨c, here, at_, holds⟩ := inv.owner i pfd there
  have decoded := holds.decoded (inv.descriptors c)
  rw [if_neg (by omega)] at decoded
  rw [Registered, ← decoded] at here
  exact ⟨c, here, decoded.symm, at_⟩

theorem Answers.plain (answers : Answers p numEvents revents) (i : Nat) (pfd : Pollfd) (r : Int)
    (there : p.pollfds[i]? = some pfd) (said : revents[i]? = some r) (some_ : r ≠ 0) :
    0 ≤ pfd.fd := by
  by_contra negative
  have paired : (p.pollfds.zip revents)[i]? = some (pfd, r) :=
    List.getElem?_zip_eq_some.mpr ⟨there, said⟩
  exact some_ (answers.ignored (pfd, r) (List.mem_of_getElem? paired) (Int.not_le.mp negative))

theorem Answers.positive (answers : Answers p numEvents revents) (i : Nat) (r : Int)
    (said : revents[i]? = some r) : 0 < r ↔ r ≠ 0 := by
  have nonneg := answers.nonneg r (List.mem_of_getElem? said)
  omega

/-- The channel delivered for a pollfd is the one that keeps its index. -/
theorem deliver_iff (inv : p.Consistent) (answers : Answers p numEvents revents) (i : Nat)
    (pfd : Pollfd) (there : (p.answered revents).pollfds[i]? = some pfd) (c : κ) :
    (p.answered revents).deliver pfd = some c ↔
      p.Registered c ∧ (p.channel c).index.toNat = i ∧ pfd.revents ≠ 0 := by
  obtain ⟨old, r, before, said, rfl⟩ := (answered_at i pfd).mp there
  by_cases silent : r = 0
  · have none : (p.answered revents).deliver { old with revents := r } = none :=
      if_neg (by simp [silent])
    rw [none]
    constructor
    · intro impossible
      cases impossible
    · rintro ⟨_, _, hit⟩
      exact absurd silent hit
  · obtain ⟨d, found, same, at_⟩ :=
      inv.find_owner i old before (answers.plain i old r before said silent)
    have delivers : (p.answered revents).deliver { old with revents := r } = some d :=
      (deliver_of_pos ((answers.positive i r said).mpr silent)).trans found
    have registered : p.Registered d := by rwa [Registered, same]
    rw [delivers, Option.some.injEq]
    constructor
    · rintro rfl
      exact ⟨registered, at_, silent⟩
    · rintro ⟨here, place, _⟩
      exact inv.table.distinct d c registered here (at_.trans place.symm)

theorem mem_delivered (inv : p.Consistent) (answers : Answers p numEvents revents) (c : κ) :
    c ∈ (p.answered revents).delivered ↔ p.Registered c ∧
      ∃ r, revents[(p.channel c).index.toNat]? = some r ∧ r ≠ 0 := by
  rw [delivered, List.mem_filterMap]
  constructor
  · rintro ⟨pfd, member, hit⟩
    obtain ⟨i, there⟩ := List.mem_iff_getElem?.mp member
    obtain ⟨here, at_, some_⟩ := (deliver_iff inv answers i pfd there c).mp hit
    obtain ⟨old, r, _, said, rfl⟩ := (answered_at i pfd).mp there
    exact ⟨here, r, by rw [at_, said], some_⟩
  · rintro ⟨here, r, said, some_⟩
    obtain ⟨old, before, _⟩ := inv.slots c here
    have there := (answered_at _ _).mpr ⟨old, r, before, said, rfl⟩
    exact ⟨_, List.mem_of_getElem? there, (deliver_iff inv answers _ _ there c).mpr
      ⟨here, rfl, some_⟩⟩

/-- The channels are delivered in the order of their pollfds, and so none twice. -/
theorem delivered_ordered (inv : p.Consistent) (answers : Answers p numEvents revents) :
    (p.answered revents).delivered.Pairwise fun c d =>
      (p.channel c).index < (p.channel d).index := by
  rw [delivered, List.pairwise_filterMap, List.pairwise_iff_getElem]
  intro i j left right before c first d second
  obtain ⟨here, at_, _⟩ :=
    (deliver_iff inv answers i _ (List.getElem?_eq_getElem left) c).mp first
  obtain ⟨there, place, _⟩ :=
    (deliver_iff inv answers j _ (List.getElem?_eq_getElem right) d).mp second
  have low := inv.indices c here
  have high := inv.indices d there
  omega

theorem delivered_nodup (inv : p.Consistent) (answers : Answers p numEvents revents) :
    (p.answered revents).delivered.Nodup := by
  apply (delivered_ordered inv answers).imp
  rintro c d before rfl
  exact Int.lt_irrefl _ before

theorem answered_count (answers : Answers p numEvents revents) :
    numEvents = (p.answered revents).pollfds.countP fun pfd => 0 < pfd.revents := by
  have written : (p.answered revents).pollfds.map Pollfd.revents = revents := by
    apply List.ext_getElem
    · rw [List.length_map, answered_length answers, answers.length]
    · intro i _ _
      simp [answered]
  rw [answers.count]
  nth_rewrite 1 [← written]
  rw [List.countP_map]
  congr 1
  apply List.countP_congr
  intro pfd member
  obtain ⟨i, there⟩ := List.mem_iff_getElem?.mp member
  obtain ⟨old, r, _, said, rfl⟩ := (answered_at i pfd).mp there
  simpa using (answers.positive i r said).symm

/-- The revents play no part in the agreement of the tables. -/
theorem Consistent.of_revents (inv : p.Consistent) (channels : q.channels = p.channels)
    (length : q.pollfds.length = p.pollfds.length)
    (pollfds : ∀ (i : Nat) (pfd : Pollfd), q.pollfds[i]? = some pfd →
      ∃ r, p.pollfds[i]? = some { pfd with revents := r })
    (channel : ∀ c, ∃ r, q.channel c = { p.channel c with revents := r }) : q.Consistent := by
  have own : ∀ c, (q.channel c).toChannel = (p.channel c).toChannel ∧
      (q.channel c).index = (p.channel c).index := by
    intro c
    obtain ⟨r, same⟩ := channel c
    rw [same]
    exact ⟨rfl, rfl⟩
  have registered : ∀ c, q.Registered c ↔ p.Registered c := by
    intro c
    rw [Registered, Registered, channels, (own c).1]
  constructor
  · intro c
    rw [(own c).1]
    exact inv.descriptors c
  · intro fd c found
    rw [(own c).1]
    exact inv.keys fd c (channels ▸ found)
  · rw [length, channels, inv.sizes]
  · intro c here
    rw [(own c).2]
    exact inv.indices c ((registered c).mp here)
  · apply (inv.table.of_length length).congr registered
    intro c _
    rw [(own c).2]
  · intro c here
    have before := (registered c).mp here
    have inside := inv.table.inside c before
    rw [← length] at inside
    have there := List.getElem?_eq_getElem inside
    obtain ⟨old, at_, holds⟩ := inv.slots c before
    obtain ⟨r, same⟩ := pollfds _ _ there
    rw [slot, same, Option.some.injEq] at at_
    rw [slot, (own c).2, (own c).1]
    subst at_
    exact ⟨_, there, holds.fd, holds.idle, holds.events⟩

theorem answered_old (i : Nat) (pfd : Pollfd)
    (there : (p.answered revents).pollfds[i]? = some pfd) :
    ∃ r, p.pollfds[i]? = some { pfd with revents := r } := by
  obtain ⟨old, r, before, _, rfl⟩ := (answered_at i pfd).mp there
  exact ⟨old.revents, before⟩

end Answer

variable [DecidableEq κ]

/-- Any operations on any channels between any calls of poll. -/
def pollMachine : Machine (Poller κ) (PollLabel κ) where
  enabled p label := label.Enabled p
  step p
    | .apply c op => p.apply c op
    | .poll answer => (p.poll answer []).map Prod.fst

section Scan

variable {p q : Poller κ}

theorem setChannel_self (c : κ) (ch : PollChannel) : (p.setChannel c ch).channel c = ch :=
  Function.update_self ..

theorem setChannel_of_ne (c d : κ) (ch : PollChannel) (different : d ≠ c) :
    (p.setChannel c ch).channel d = p.channel d :=
  Function.update_of_ne different ..

/-- What the loop over some of the pollfds leaves behind. -/
structure Filled (p : Poller κ) (pfds : List Pollfd) (q : Poller κ) : Prop where
  pollfds : q.pollfds = p.pollfds
  channels : q.channels = p.channels
  others : ∀ c, c ∉ pfds.filterMap p.deliver → q.channel c = p.channel c
  owners : ∀ pfd ∈ pfds, ∀ c, p.deliver pfd = some c →
    q.channel c = { p.channel c with revents := pfd.revents }

omit [DecidableEq κ] in
theorem Filled.nothing {pfds : List Pollfd} (none : pfds.filterMap p.deliver = []) :
    Filled p pfds p where
  pollfds := rfl
  channels := rfl
  others _ _ := rfl
  owners pfd member c hit := by
    have listed := List.mem_filterMap.mpr ⟨pfd, member, hit⟩
    rw [none] at listed
    cases listed

omit [DecidableEq κ] in
theorem Filled.skip {pfd : Pollfd} {rest : List Pollfd} (none : p.deliver pfd = none)
    (filled : Filled p rest q) : Filled p (pfd :: rest) q where
  pollfds := filled.pollfds
  channels := filled.channels
  others c absent := by
    rw [List.filterMap_cons_none none] at absent
    exact filled.others c absent
  owners other member c hit := by
    rcases List.mem_cons.mp member with rfl | later
    · rw [none] at hit
      cases hit
    · exact filled.owners other later c hit

theorem Filled.hit {pfd : Pollfd} {rest : List Pollfd} {c : κ} (here : p.deliver pfd = some c)
    (once : c ∉ rest.filterMap p.deliver)
    (filled : Filled (p.setChannel c { p.channel c with revents := pfd.revents }) rest q) :
    Filled p (pfd :: rest) q where
  pollfds := filled.pollfds
  channels := filled.channels
  others d absent := by
    rw [List.filterMap_cons_some here, List.mem_cons, not_or] at absent
    rw [filled.others d absent.2, setChannel_of_ne c d _ absent.1]
  owners other member d hit := by
    rcases List.mem_cons.mp member with rfl | later
    · obtain rfl : c = d := Option.some.inj (here.symm.trans hit)
      rw [filled.others c once, setChannel_self]
    · have different : d ≠ c := by
        rintro rfl
        exact once (List.mem_filterMap.mpr ⟨other, later, hit⟩)
      rw [filled.owners other later d hit, setChannel_of_ne c d _ different]

/-- The loop, from a pollfd on: when the count is right for the rest, it delivers all of it. -/
theorem fillFrom_spec (pfds : List Pollfd) (p : Poller κ) (numEvents : Int) (active : List κ)
    (count : numEvents = pfds.countP fun pfd => 0 < pfd.revents)
    (ready : ∀ pfd ∈ pfds, 0 < pfd.revents →
      ∃ c, p.channels.find pfd.fd = some c ∧ (p.channel c).fd = pfd.fd)
    (once : (pfds.filterMap p.deliver).Nodup) :
    ∃ q, p.fillFrom pfds numEvents active = some (q, active ++ pfds.filterMap p.deliver) ∧
      Filled p pfds q := by
  induction pfds generalizing p numEvents active with
  | nil => exact ⟨p, by simp [fillFrom], .nothing rfl⟩
  | cons pfd rest ih =>
      rw [List.forall_mem_cons] at ready
      by_cases positive : 0 < pfd.revents
      · obtain ⟨c, found, fd⟩ := ready.1 positive
        have here : p.deliver pfd = some c := (deliver_of_pos positive).trans found
        rw [List.countP_cons_of_pos (by simpa using positive)] at count
        rw [List.filterMap_cons_some here, List.nodup_cons] at once
        obtain ⟨q, done, filled⟩ :=
          ih (p.setChannel c { p.channel c with revents := pfd.revents }) (numEvents - 1)
            (active ++ [c]) (by omega) (by
              intro other member hit
              obtain ⟨d, there, same⟩ := ready.2 other member hit
              refine ⟨d, there, ?_⟩
              by_cases equal : d = c
              · rw [equal, setChannel_self, ← same, equal]
              · rw [setChannel_of_ne c d _ equal, same])
            once.2
        refine ⟨q, ?_, .hit here once.1 filled⟩
        rw [fillFrom, if_pos (by omega), if_pos positive, found, Option.bind_some, if_pos fd, done,
          List.filterMap_cons_some here, List.append_assoc, List.singleton_append]
        rfl
      · have none : p.deliver pfd = none := if_neg positive
        rw [List.countP_cons_of_neg (by simpa using positive)] at count
        rw [List.filterMap_cons_none none] at once ⊢
        by_cases more : 0 < numEvents
        · obtain ⟨q, done, filled⟩ := ih p numEvents active count ready.2 once
          refine ⟨q, ?_, .skip none filled⟩
          rw [fillFrom, if_pos more, if_neg positive, done]
        · -- the scan stops here, and there is nothing more to find
          have empty := filterMap_deliver_nil (p := p) rest (by omega)
          rw [empty, List.append_nil]
          exact ⟨p, by rw [fillFrom, if_neg more], .skip none (.nothing empty)⟩

end Scan

section Runs

variable {p q : Poller κ} {numEvents : Int} {revents : List Int}

/-- fillActiveChannels in a consistent state, for an answer that the kernel may give. -/
theorem fillActiveChannels_spec (inv : p.Consistent) (answers : Answers p numEvents revents)
    (active : List κ) :
    ∃ q, (p.answered revents).fillActiveChannels numEvents active =
        some (q, active ++ (p.answered revents).delivered) ∧
      q.pollfds = (p.answered revents).pollfds ∧ q.channels = p.channels ∧
      (∀ c r, c ∈ (p.answered revents).delivered →
        revents[(p.channel c).index.toNat]? = some r →
        q.channel c = { p.channel c with revents := r }) ∧
      ∀ c, c ∉ (p.answered revents).delivered → q.channel c = p.channel c := by
  obtain ⟨q, done, filled⟩ :=
    fillFrom_spec (p.answered revents).pollfds (p.answered revents) numEvents active
      (answered_count answers) (by
        intro pfd member hit
        obtain ⟨i, there⟩ := List.mem_iff_getElem?.mp member
        obtain ⟨old, r, before, said, rfl⟩ := (answered_at i pfd).mp there
        obtain ⟨c, found, same, _⟩ := inv.find_owner i old before
          (answers.plain i old r before said (by exact Int.ne_of_gt hit))
        exact ⟨c, found, same⟩)
      (delivered_nodup inv answers)
  refine ⟨q, done, filled.pollfds, filled.channels, ?_, filled.others⟩
  intro c r member said
  obtain ⟨pfd, listed, hit⟩ := List.mem_filterMap.mp member
  obtain ⟨i, there⟩ := List.mem_iff_getElem?.mp listed
  obtain ⟨_, at_, _⟩ := (deliver_iff inv answers i pfd there c).mp hit
  obtain ⟨old, own, _, written, rfl⟩ := (answered_at i pfd).mp there
  obtain rfl : r = own := by
    rw [at_, written] at said
    exact (Option.some.inj said).symm
  exact filled.owners _ listed c hit

theorem poll_consistent (inv : p.Consistent) (answer : Option (Int × List Int))
    (allowed : PollLabel.Enabled p (.poll answer)) (active : List κ)
    (polled : p.poll answer [] = some (q, active)) : q.Consistent := by
  cases answer with
  | none =>
      cases polled
      exact inv
  | some said =>
      obtain ⟨numEvents, revents⟩ := said
      have answers : Answers p numEvents revents := allowed
      unfold poll at polled
      dsimp only at polled
      split at polled
      · obtain ⟨filled, done, pollfds, channels, owners, others⟩ :=
          fillActiveChannels_spec inv answers []
        obtain ⟨rfl, _⟩ := Prod.mk.inj (Option.some.inj (done.symm.trans polled))
        apply inv.of_revents channels
        · rw [pollfds, answered_length answers]
        · intro i pfd there
          rw [pollfds] at there
          exact answered_old i pfd there
        · intro c
          by_cases hit : c ∈ (p.answered revents).delivered
          · obtain ⟨_, r, said, _⟩ := (mem_delivered inv answers c).mp hit
            exact ⟨r, owners c r hit said⟩
          · exact ⟨(p.channel c).revents, others c hit⟩
      · cases polled
        exact inv.of_revents rfl (answered_length answers) answered_old
          fun c => ⟨(p.channel c).revents, rfl⟩

theorem pollMachine_consistent (fds : κ → Int) (nonneg : ∀ c, 0 ≤ fds c)
    (labels : List (PollLabel κ)) (p : Poller κ)
    (run : pollMachine.Run (create fun c => PollChannel.create (fds c)) labels p) :
    p.Consistent := by
  apply run.invariant _ (create_consistent fds nonneg)
  intro s label t inv allowed moved
  cases label with
  | apply c op => exact (apply_spec s c op inv t moved).1
  | poll answer =>
      obtain ⟨⟨q, active⟩, polled, rfl⟩ := Option.map_eq_some_iff.mp moved
      exact poll_consistent inv answer allowed active polled

/-- After any operations on any channels, and any polls between them, the scan that stops
early delivers what the full filter does: each registered channel whose pollfd has something,
once and in the order of the pollfds, with its own revents. -/
theorem events_delivered (fds : κ → Int) (nonneg : ∀ c, 0 ≤ fds c) (labels : List (PollLabel κ))
    (p : Poller κ) (run : pollMachine.Run (create fun c => PollChannel.create (fds c)) labels p)
    (numEvents : Int) (revents : List Int) (answers : Answers p numEvents revents)
    (active : List κ) :
    ∃ q, (p.answered revents).fillActiveChannels numEvents active =
        some (q, active ++ (p.answered revents).delivered) ∧
      (∀ c, c ∈ (p.answered revents).delivered ↔ p.Registered c ∧
        ∃ r, revents[(p.channel c).index.toNat]? = some r ∧ r ≠ 0) ∧
      (p.answered revents).delivered.Nodup ∧
      ((p.answered revents).delivered.Pairwise fun c d =>
        (p.channel c).index < (p.channel d).index) ∧
      (∀ c r, c ∈ (p.answered revents).delivered →
        revents[(p.channel c).index.toNat]? = some r →
        q.channel c = { p.channel c with revents := r }) ∧
      ∀ c, c ∉ (p.answered revents).delivered → q.channel c = p.channel c := by
  have inv := pollMachine_consistent fds nonneg labels p run
  obtain ⟨q, filled, _, _, owners, others⟩ := fillActiveChannels_spec inv answers active
  exact ⟨q, filled, mem_delivered inv answers, delivered_nodup inv answers,
    delivered_ordered inv answers, owners, others⟩

instance decidableAnswers (p : Poller κ) (numEvents : Int) (revents : List Int) :
    Decidable (Answers p numEvents revents) :=
  decidable_of_iff (revents.length = p.pollfds.length ∧ (∀ r ∈ revents, 0 ≤ r) ∧
      (∀ pair ∈ p.pollfds.zip revents, pair.1.fd < 0 → pair.2 = 0) ∧
      numEvents = revents.countP (· ≠ 0))
    ⟨fun ⟨length, nonneg, ignored, count⟩ => ⟨length, nonneg, ignored, count⟩,
      fun answers => ⟨answers.length, answers.nonneg, answers.ignored, answers.count⟩⟩

instance decidablePollEnabled (p : Poller κ) :
    (label : PollLabel κ) → Decidable (pollMachine.enabled p label)
  | .apply _ _ | .poll none => inferInstanceAs (Decidable True)
  | .poll (some (numEvents, revents)) => decidableAnswers p numEvents revents

/-- Four channels, one of them ignored and one removed, so that the last pollfd has moved. -/
theorem events_delivered_swap :
    ∃ p : Poller Nat, pollMachine.Run (create fun c => PollChannel.create (Int.ofNat c))
        [.apply 5 .enableReading, .apply 6 .enableReading, .apply 7 .enableReading,
          .apply 8 .enableWriting, .poll (some (1, [0, 1, 0, 0])), .apply 5 .disableAll,
          .apply 6 .disableAll, .apply 5 .remove] p ∧
      Answers p 2 [4, 0, 1] ∧
      ∃ q, (p.answered [4, 0, 1]).fillActiveChannels 2 [] = some (q, [8, 7]) ∧
        (q.channel 8).revents = 4 ∧ (q.channel 6).revents = 1 := by
  obtain ⟨p, run, seen⟩ := Machine.exists_run_of_play pollMachine
    (create fun c => PollChannel.create (Int.ofNat c))
    [.apply 5 .enableReading, .apply 6 .enableReading, .apply 7 .enableReading,
      .apply 8 .enableWriting, .poll (some (1, [0, 1, 0, 0])), .apply 5 .disableAll,
      .apply 6 .disableAll, .apply 5 .remove]
    (fun p => (decide (Answers p 2 [4, 0, 1]), (p.answered [4, 0, 1]).delivered,
      (p.channel 8).index, (p.channel 6).revents)) (true, [8, 7], 0, 1) (by decide +kernel)
  simp only [Prod.mk.injEq, decide_eq_true_eq] at seen
  obtain ⟨answers, delivered, index, revents⟩ := seen
  obtain ⟨q, filled, _, _, _, owners, others⟩ :=
    events_delivered Int.ofNat Int.natCast_nonneg _ p run 2 [4, 0, 1] answers []
  rw [delivered] at filled owners others
  refine ⟨p, run, answers, q, filled, ?_, ?_⟩
  · rw [owners 8 4 (by decide) (by rw [index]; rfl)]
  · rw [others 6 (by decide), revents]

end Runs

end Tundra.Poller
