import Mathlib.Data.List.Nodup
import Tundra.Base.LogFile

set_option autoImplicit false

/- Rolling from one log file to the next: what has been written stays on the disk as
long as every file gets a name of its own. -/
namespace Tundra.LogFile

open Library

section

variable (localtime : Nat → TimeStamp.Tm)

/-- The mapping of the constructor: a file of zeros. -/
theorem create_disk (disk : Disk) (filename : Bytes) (len : Nat) (positive : 0 < len) :
    (MmapManager.create disk filename len).2 =
      Function.update disk filename (some (List.replicate len 0)) := by
  have filled : overwrite (List.replicate (len - 1) (0 : UInt8)) (len - 1) [0] =
      List.replicate len 0 := by
    rw [overwrite, List.take_of_length_le (by simp), List.drop_eq_nil_of_le (by simp),
      List.append_nil, ← List.replicate_succ', Nat.sub_add_cancel positive]
  unfold MmapManager.create FileSystem.writeAt FileSystem.openTrunc
  simp only [Function.update_self, Option.map_some, Function.update_idem, List.nil_append,
    List.length_nil, Nat.sub_zero, filled]

/-- `data` is what the current mapping holds, in front of zeros. -/
structure Holding (s : State) (m : MmapManager) (data : Bytes) : Prop where
  mapped : s.log.curMMap = some m
  whole : m.len = s.log.rollSize.bytes
  position : m.curPos = data.length
  counted : s.log.curBytes = data.length
  bounded : data.length ≤ m.len
  current : s.disk m.fName = some (data ++ List.replicate (m.len - data.length) 0)

/-- `old` are the files before the current one, and `data` is what has been put there. -/
structure Intact (s : State) (m : MmapManager) (old : List Bytes) (data : Bytes) : Prop where
  mapped : s.log.curMMap = some m
  whole : m.len = s.log.rollSize.bytes
  position : m.curPos = data.length
  counted : s.log.curBytes = data.length
  bounded : data.length ≤ m.len
  current : s.disk m.fName = some (data ++ List.replicate (m.len - data.length) 0)
  files : s.files = old ++ [m.fName]
  distinct : s.files.Nodup
  earlier : ∀ file ∈ old, 0 < s.disk.size file

variable {s : State} {m : MmapManager} {old : List Bytes} {data : Bytes}

theorem Intact.holding (intact : Intact s m old data) : Holding s m data :=
  ⟨intact.mapped, intact.whole, intact.position, intact.counted, intact.bounded, intact.current⟩

theorem Intact.absent (intact : Intact s m old data) : m.fName ∉ old := by
  have distinct := intact.distinct
  rw [intact.files, List.nodup_append] at distinct
  intro member
  exact distinct.2.2 _ member _ (List.mem_singleton.mpr rfl) rfl

/-- The destructor leaves the data of the current file. -/
theorem Holding.cut (holding : Holding s m data) (disk : Disk)
    (same : disk m.fName = s.disk m.fName) :
    m.destroy disk = Function.update disk m.fName (some data) := by
  have cut : resize (data ++ List.replicate (m.len - data.length) (0 : UInt8)) data.length 0 =
      data := by
    rw [resize, List.take_left, List.length_append]
    simp
  rw [MmapManager.destroy, FileSystem.truncate, same, holding.current, holding.position,
    Option.map_some, cut]

/-- A message that fits is put behind the data. -/
theorem Holding.put (holding : Holding s m data) (logMsgs : Bytes)
    (fits : data.length + logMsgs.length ≤ m.len) :
    ∃ t, s.put logMsgs = some t ∧
      Holding t { m with curPos := m.curPos + logMsgs.length } (data ++ logMsgs) ∧
      t.disk = Function.update s.disk m.fName (some (data ++ logMsgs ++
        List.replicate (m.len - data.length - logMsgs.length) 0)) ∧
      t.files = s.files ∧ t.log.rollSize = s.log.rollSize ∧ t.log.basename = s.log.basename := by
  have stored := FileSystem.store_filled s.disk MmapManager.pageSize m.fName data logMsgs
    (m.len - data.length) (by decide) holding.current (by omega)
  have puts : s.put logMsgs = some { s with
      disk := Function.update s.disk m.fName (some (data ++ logMsgs ++
        List.replicate (m.len - data.length - logMsgs.length) 0))
      log := { s.log with
        curMMap := some { m with curPos := m.curPos + logMsgs.length }
        curBytes := s.log.curBytes + logMsgs.length } } := by
    have inside : m.curPos + logMsgs.length ≤ m.len := by rw [holding.position]; exact fits
    rw [State.put, holding.mapped, Option.bind_some, MmapManager.append, if_pos inside,
      holding.position, stored]
    rfl
  refine ⟨_, puts, ?_, rfl, rfl, rfl, rfl⟩
  have length : (data ++ logMsgs).length = data.length + logMsgs.length := List.length_append
  exact {
    mapped := rfl
    whole := holding.whole
    position := by rw [length, ← holding.position]
    counted := by rw [length, ← holding.counted]
    bounded := by rw [length]; exact fits
    current := by
      dsimp only
      rw [Function.update_self, length, Nat.sub_add_eq] }

/-- A roll to another name than that of the current file: the new mapping is empty, and the
old file is cut to its data. -/
theorem Holding.roll (holding : Holding s m data) (now : Nat)
    (other : getLogFileName localtime s.log.basename now ≠ m.fName) :
    Holding (s.rollFile localtime now)
        ⟨getLogFileName localtime s.log.basename now, s.log.rollSize.bytes, 0⟩ [] ∧
      (s.rollFile localtime now).disk = Function.update
        (Function.update s.disk (getLogFileName localtime s.log.basename now)
          (some (List.replicate s.log.rollSize.bytes 0))) m.fName (some data) := by
  have disk : (s.rollFile localtime now).disk = Function.update
      (Function.update s.disk (getLogFileName localtime s.log.basename now)
        (some (List.replicate s.log.rollSize.bytes 0))) m.fName (some data) := by
    unfold State.rollFile
    dsimp only
    rw [holding.mapped, Option.elim_some, create_disk _ _ _ s.log.rollSize.positive]
    exact holding.cut _ (Function.update_of_ne other.symm _ _)
  refine ⟨⟨rfl, rfl, rfl, rfl, Nat.zero_le _, ?_⟩, disk⟩
  rw [disk, Function.update_of_ne other, Function.update_self]
  rfl

theorem Intact.onDisk (intact : Intact s m old data) :
    s.destroy.onDisk = s.disk.contents old ++ data := by
  unfold State.onDisk State.destroy
  dsimp only
  rw [intact.mapped, intact.files, Option.elim_some, intact.holding.cut s.disk rfl,
    FileSystem.contents_append, FileSystem.contents_update _ _ _ _ intact.absent,
    FileSystem.contents_single, Function.update_self, Option.getD_some]

/-- The new file is listed, once. -/
theorem rollFile_files (now : Nat) (distinct : s.files.Nodup) :
    getLogFileName localtime s.log.basename now ∈ (s.rollFile localtime now).files ∧
      (s.rollFile localtime now).files.Nodup := by
  by_cases again : getLogFileName localtime s.log.basename now ∈ s.files
  · have files : (s.rollFile localtime now).files = s.files := if_pos again
    rw [files]
    exact ⟨again, distinct⟩
  · have files : (s.rollFile localtime now).files =
        s.files ++ [getLogFileName localtime s.log.basename now] := if_neg again
    rw [files]
    refine ⟨List.mem_append_right _ (List.mem_singleton.mpr rfl), ?_⟩
    exact List.nodup_append_comm.mp (List.nodup_cons.mpr ⟨again, distinct⟩)

/-- Right behind a roll. -/
theorem rolled_intact (now : Nat)
    (fresh : getLogFileName localtime s.log.basename now ∉ s.files) (distinct : s.files.Nodup)
    (zeros : (s.rollFile localtime now).disk (getLogFileName localtime s.log.basename now) =
      some (List.replicate s.log.rollSize.bytes 0))
    (earlier : ∀ file ∈ s.files, 0 < (s.rollFile localtime now).disk.size file) :
    Intact (s.rollFile localtime now)
      ⟨getLogFileName localtime s.log.basename now, s.log.rollSize.bytes, 0⟩ s.files [] := by
  have files : (s.rollFile localtime now).files =
      s.files ++ [getLogFileName localtime s.log.basename now] := if_neg fresh
  exact {
    mapped := rfl
    whole := rfl
    position := rfl
    counted := rfl
    bounded := Nat.zero_le _
    current := zeros
    files := files
    distinct := (rollFile_files localtime now distinct).2
    earlier := earlier }

theorem Intact.put (intact : Intact s m old data) (logMsgs : Bytes)
    (fits : data.length + logMsgs.length ≤ m.len) :
    ∃ t n, s.put logMsgs = some t ∧ Intact t n old (data ++ logMsgs) ∧
      t.disk.contents old = s.disk.contents old ∧ t.files = s.files ∧
      t.log.rollSize = s.log.rollSize ∧ t.log.basename = s.log.basename := by
  obtain ⟨t, puts, holding, disk, files, size, name⟩ := intact.holding.put logMsgs fits
  refine ⟨t, { m with curPos := m.curPos + logMsgs.length }, puts, ?_, ?_, files, size, name⟩
  · exact {
      mapped := holding.mapped
      whole := holding.whole
      position := holding.position
      counted := holding.counted
      bounded := holding.bounded
      current := holding.current
      files := files.trans intact.files
      distinct := by rw [files]; exact intact.distinct
      earlier := by
        intro file member
        have elsewhere := ne_of_mem_of_not_mem member intact.absent
        rw [disk, FileSystem.size_update, Function.update_of_ne elsewhere]
        exact intact.earlier file member }
  · rw [disk]
    exact FileSystem.contents_update _ _ _ _ intact.absent

/-- The size of a file once the current one has been cut. -/
def finalSize (s : State) (m : MmapManager) : Bytes → Nat :=
  Function.update s.disk.size m.fName m.curPos

/-- Every file holds something once the current one does. -/
theorem Intact.finalSize_pos (intact : Intact s m old data) (used : 0 < data.length)
    (file : Bytes) (member : file ∈ s.files) : 0 < finalSize s m file := by
  unfold finalSize
  by_cases current : file = m.fName
  · rw [current, Function.update_self, intact.position]
    exact used
  · rw [Function.update_of_ne current]
    rw [intact.files] at member
    rcases List.mem_append.mp member with before | last
    · exact intact.earlier file before
    · exact absurd (List.mem_singleton.mp last) current

/-- A roll to a name that is new, with something in the current file. -/
theorem Intact.roll (intact : Intact s m old data) (now : Nat) (used : 0 < data.length)
    (fresh : getLogFileName localtime s.log.basename now ∉ s.files) :
    Intact (s.rollFile localtime now)
        ⟨getLogFileName localtime s.log.basename now, s.log.rollSize.bytes, 0⟩ s.files [] ∧
      (s.rollFile localtime now).disk.contents s.files = s.disk.contents old ++ data := by
  have listed : m.fName ∈ s.files := by
    rw [intact.files]
    exact List.mem_append_right _ (List.mem_singleton.mpr rfl)
  have other := ne_of_mem_of_not_mem listed fresh
  obtain ⟨holding, disk⟩ := intact.holding.roll localtime now other.symm
  constructor
  · apply rolled_intact localtime now fresh intact.distinct
    · exact holding.current
    · intro file member
      have same : (s.rollFile localtime now).disk.size file = finalSize s m file := by
        rw [disk, FileSystem.size_update, FileSystem.size_update, Function.update_comm other.symm,
          Function.update_of_ne (ne_of_mem_of_not_mem member fresh), finalSize, intact.position]
        rfl
      rw [same]
      exact intact.finalSize_pos used file member
  · have absent : getLogFileName localtime s.log.basename now ∉ old := by
      intro member
      apply fresh
      rw [intact.files]
      exact List.mem_append_left _ member
    rw [disk, intact.files, FileSystem.contents_append,
      FileSystem.contents_update _ _ _ _ intact.absent, FileSystem.contents_update _ _ _ _ absent,
      FileSystem.contents_single, Function.update_self, Option.getD_some]

/-- The constructor's own roll. -/
theorem create_intact (disk : Disk) (basename : Bytes) (rollSize : RollSize) (now : Nat)
    (made : create localtime disk basename rollSize now = some s) :
    Intact s ⟨getLogFileName localtime basename now, rollSize.bytes, 0⟩ [] [] ∧
      s.log.rollSize = rollSize ∧ s.log.basename = basename := by
  unfold create at made
  split at made
  · cases made
  · cases made
    refine ⟨?_, rfl, rfl⟩
    apply rolled_intact localtime now (by simp) List.nodup_nil
    · unfold State.rollFile
      dsimp only
      rw [Option.elim_none, create_disk _ _ _ rollSize.positive, Function.update_self]
    · intro file member
      cases member

/-- Also when a name has been used twice: there is a current file, and every file is
listed once. -/
structure Mapped (s : State) (m : MmapManager) : Prop where
  mapped : s.log.curMMap = some m
  listed : m.fName ∈ s.files
  distinct : s.files.Nodup
  there : s.disk m.fName ≠ none

theorem Intact.toMapped (intact : Intact s m old data) : Mapped s m := by
  refine ⟨intact.mapped, ?_, intact.distinct, ?_⟩
  · rw [intact.files]
    exact List.mem_append_right _ (List.mem_singleton.mpr rfl)
  · rw [intact.current]
    simp

theorem Mapped.length (found : Mapped s m) :
    s.destroy.onDisk.length = (s.files.map (finalSize s m)).sum := by
  unfold State.onDisk State.destroy
  dsimp only
  rw [FileSystem.contents_length, found.mapped, Option.elim_some, MmapManager.destroy,
    FileSystem.truncate_size _ _ _ found.there, finalSize]

/-- What a copy that has been made says of the mapping, and what it leaves. -/
theorem put_inv (current : s.log.curMMap = some m) (logMsgs : Bytes) (t : State)
    (puts : s.put logMsgs = some t) :
    ∃ disk, s.disk.store MmapManager.pageSize m.fName m.curPos logMsgs = some disk ∧
      m.curPos + logMsgs.length ≤ m.len ∧
      t = { s with
        disk := disk
        log := { s.log with
          curMMap := some { m with curPos := m.curPos + logMsgs.length }
          curBytes := s.log.curBytes + logMsgs.length } } := by
  rw [State.put, current, Option.bind_some, Option.map_eq_some_iff] at puts
  obtain ⟨⟨n, disk⟩, appended, rfl⟩ := puts
  unfold MmapManager.append at appended
  split at appended
  · rename_i fits
    obtain ⟨stored, reached, same⟩ := Option.map_eq_some_iff.mp appended
    cases same
    exact ⟨disk, reached, fits, rfl⟩
  · cases appended

/-- A message adds its length to one file. -/
theorem Mapped.put (found : Mapped s m) (logMsgs : Bytes) (t : State)
    (puts : s.put logMsgs = some t) :
    ∃ n, Mapped t n ∧
      t.destroy.onDisk.length = s.destroy.onDisk.length + logMsgs.length := by
  obtain ⟨disk, stored, _, rfl⟩ := put_inv found.mapped logMsgs t puts
  have there := FileSystem.store_there _ _ _ _ _ _ stored
  have sizes := FileSystem.store_size _ _ _ _ _ _ stored
  have mapped : Mapped
      { s with
        disk := disk
        log := { s.log with
          curMMap := some { m with curPos := m.curPos + logMsgs.length }
          curBytes := s.log.curBytes + logMsgs.length } }
      { m with curPos := m.curPos + logMsgs.length } :=
    ⟨rfl, found.listed, found.distinct, there⟩
  have before := FileSystem.sum_update s.files s.disk.size m.fName m.curPos found.distinct
    found.listed
  have behind := FileSystem.sum_update s.files s.disk.size m.fName
    (m.curPos + logMsgs.length) found.distinct found.listed
  refine ⟨_, mapped, ?_⟩
  rw [found.length, mapped.length, finalSize, finalSize, sizes]
  dsimp only
  omega

/-- Behind a roll the new file counts as empty and every other one as before. -/
theorem Mapped.rolled (found : Mapped s m) (now : Nat) :
    (s.rollFile localtime now).disk (getLogFileName localtime s.log.basename now) ≠ none ∧
      finalSize (s.rollFile localtime now)
          ⟨getLogFileName localtime s.log.basename now, s.log.rollSize.bytes, 0⟩ =
        Function.update (finalSize s m) (getLogFileName localtime s.log.basename now) 0 := by
  generalize named : getLogFileName localtime s.log.basename now = name
  have disk : (s.rollFile localtime now).disk = FileSystem.truncate
      (Function.update s.disk name (some (List.replicate s.log.rollSize.bytes 0))) m.fName
      m.curPos := by
    unfold State.rollFile
    dsimp only
    rw [named, found.mapped, Option.elim_some, create_disk _ _ _ s.log.rollSize.positive,
      MmapManager.destroy]
  have kept : Function.update s.disk name (some (List.replicate s.log.rollSize.bytes 0)) m.fName ≠
      none := by
    by_cases same : m.fName = name
    · rw [same, Function.update_self]
      simp
    · rw [Function.update_of_ne same]
      exact found.there
  constructor
  · rw [disk]
    apply FileSystem.truncate_there
    rw [Function.update_self]
    simp
  · rw [finalSize, disk, FileSystem.truncate_size _ _ _ kept, FileSystem.size_update, finalSize]
    dsimp only
    by_cases same : m.fName = name
    · rw [same]
      simp only [Function.update_idem]
    · rw [Function.update_comm same, Function.update_idem, Function.update_comm same]

/-- A roll adds nothing, and takes away what was in a file of the same name. -/
theorem Mapped.roll (found : Mapped s m) (now : Nat) :
    ∃ n, Mapped (s.rollFile localtime now) n ∧
      (s.rollFile localtime now).destroy.onDisk.length +
          (if getLogFileName localtime s.log.basename now ∈ s.files then
            finalSize s m (getLogFileName localtime s.log.basename now) else 0) =
        s.destroy.onDisk.length := by
  obtain ⟨there, sizes⟩ := found.rolled localtime now
  obtain ⟨listed, distinct⟩ := rollFile_files localtime now found.distinct
  have mapped : Mapped (s.rollFile localtime now)
      ⟨getLogFileName localtime s.log.basename now, s.log.rollSize.bytes, 0⟩ :=
    ⟨rfl, listed, distinct, there⟩
  refine ⟨_, mapped, ?_⟩
  rw [mapped.length, found.length, sizes]
  by_cases again : getLogFileName localtime s.log.basename now ∈ s.files
  · have files : (s.rollFile localtime now).files = s.files := if_pos again
    rw [files, if_pos again]
    exact FileSystem.sum_update s.files (finalSize s m) _ 0 found.distinct again
  · have files : (s.rollFile localtime now).files =
        s.files ++ [getLogFileName localtime s.log.basename now] := if_neg again
    have others : s.files.map
        (Function.update (finalSize s m) (getLogFileName localtime s.log.basename now) 0) =
        s.files.map (finalSize s m) := by
      apply List.map_congr_left
      intro file member
      exact Function.update_of_ne (ne_of_mem_of_not_mem member again) _ _
    rw [files, if_neg again, List.map_append, List.sum_append, others]
    simp

/-- The files of a LogFile that has lost something hold less than what was appended. -/
theorem short_append (found : Mapped s m) (call : Call) (t : State)
    (appended : s.append localtime call = some t) :
    ∃ n, Mapped t n ∧
      t.destroy.onDisk.length ≤ s.destroy.onDisk.length + call.logMsgs.length := by
  unfold State.append at appended
  split at appended
  · split at appended
    · obtain ⟨n, rolled, fewer⟩ := found.roll localtime call.now
      obtain ⟨k, mapped, more⟩ := rolled.put call.logMsgs t appended
      exact ⟨k, mapped, by omega⟩
    · obtain ⟨n, mapped, more⟩ := found.put call.logMsgs t appended
      exact ⟨n, mapped, by omega⟩
  · cases appended

theorem short_run (calls : List Call) (found : Mapped s m) (t : State)
    (run : (machine localtime).Run s (calls.map .append) t) :
    t.destroy.onDisk.length ≤
      s.destroy.onDisk.length + (calls.flatMap Call.logMsgs).length := by
  induction calls generalizing s m with
  | nil =>
      rw [run.eq_of_nil]
      exact Nat.le_add_right _ _
  | cons call rest ih =>
      obtain ⟨u, _, appended, later⟩ := run.uncons
      obtain ⟨n, mapped, grown⟩ := short_append localtime found call u appended
      have onward := ih mapped later
      rw [List.flatMap_cons, List.length_append]
      omega

/-- A roll to a name that has been used: what was in that file is missing in the end. -/
theorem Intact.overwritten (intact : Intact s m old data) (used : 0 < data.length) (call : Call)
    (calls : List Call) (full : data.length + call.logMsgs.length > s.log.rollSize.bytes)
    (again : getLogFileName localtime s.log.basename call.now ∈ s.files) (t : State)
    (run : (machine localtime).Run s (.append call :: calls.map .append) t) :
    t.destroy.onDisk.length <
      (s.disk.contents old ++ data ++ (call :: calls).flatMap Call.logMsgs).length := by
  obtain ⟨u, allowed, appended, later⟩ := run.uncons
  have puts : (s.rollFile localtime call.now).put call.logMsgs = some u := by
    have small : call.logMsgs.length < s.log.rollSize.bytes := allowed
    have moved : s.append localtime call = some u := appended
    rw [State.append, if_pos small, intact.counted, if_pos full] at moved
    exact moved
  obtain ⟨n, rolled, lost⟩ := intact.toMapped.roll localtime call.now
  obtain ⟨k, mapped, grown⟩ := rolled.put call.logMsgs u puts
  have onward := short_run localtime calls mapped t later
  have there := intact.finalSize_pos used _ again
  have before := congrArg List.length intact.onDisk
  rw [if_pos again] at lost
  rw [List.length_append, ← before, List.flatMap_cons, List.length_append]
  omega

/-- A call that does not roll, or rolls to a new name, adds its message. -/
theorem Intact.append (intact : Intact s m old data) (call : Call)
    (small : call.logMsgs.length < s.log.rollSize.bytes)
    (fresh : data.length + call.logMsgs.length > s.log.rollSize.bytes →
      getLogFileName localtime s.log.basename call.now ∉ s.files) :
    ∃ t n before more, s.append localtime call = some t ∧ Intact t n before more ∧
      t.disk.contents before ++ more = s.disk.contents old ++ data ++ call.logMsgs ∧
      (∀ rest, t.files ++ (rollTimes s.log.rollSize.bytes more.length rest).map
          (getLogFileName localtime s.log.basename) =
        s.files ++ (rollTimes s.log.rollSize.bytes data.length (call :: rest)).map
          (getLogFileName localtime s.log.basename)) ∧
      t.log.rollSize = s.log.rollSize ∧ t.log.basename = s.log.basename := by
  by_cases full : data.length + call.logMsgs.length > s.log.rollSize.bytes
  · obtain ⟨rolled, contents⟩ := intact.roll localtime call.now (by omega) (fresh full)
    obtain ⟨t, n, puts, next, same, files, size, name⟩ :=
      rolled.put call.logMsgs (by simpa using small.le)
    refine ⟨t, n, _, _, ?_, next, ?_, ?_, size, name⟩
    · rw [State.append, if_pos small, intact.counted, if_pos full]
      exact puts
    · rw [same, contents, List.nil_append]
    · intro rest
      have listed : (s.rollFile localtime call.now).files =
          s.files ++ [getLogFileName localtime s.log.basename call.now] := if_neg (fresh full)
      rw [files, listed, rollTimes, if_pos full, List.map_cons, List.nil_append,
        List.append_assoc, List.singleton_append]
  · obtain ⟨t, n, puts, next, same, files, size, name⟩ :=
      intact.put call.logMsgs (by rw [intact.whole]; omega)
    refine ⟨t, n, _, _, ?_, next, ?_, ?_, size, name⟩
    · rw [State.append, if_pos small, intact.counted, if_neg full]
      exact puts
    · rw [same, List.append_assoc]
    · intro rest
      rw [files, rollTimes, if_neg full, List.length_append]

theorem Intact.kept_iff (intact : Intact s m old data) (calls : List Call)
    (short : ∀ call ∈ calls, call.logMsgs.length < s.log.rollSize.bytes) :
    (∃ t, (machine localtime).Run s (calls.map .append) t ∧
        t.destroy.onDisk = s.disk.contents old ++ data ++ calls.flatMap Call.logMsgs) ↔
      (s.files ++ (rollTimes s.log.rollSize.bytes data.length calls).map
        (getLogFileName localtime s.log.basename)).Nodup := by
  induction calls generalizing s m old data with
  | nil =>
      constructor
      · intro _
        simpa [rollTimes] using intact.distinct
      · intro _
        exact ⟨s, .nil, by rw [intact.onDisk, List.flatMap_nil, List.append_nil]⟩
  | cons call rest ih =>
      obtain ⟨small, later⟩ := List.forall_mem_cons.mp short
      by_cases again : data.length + call.logMsgs.length > s.log.rollSize.bytes ∧
          getLogFileName localtime s.log.basename call.now ∈ s.files
      · obtain ⟨full, again⟩ := again
        constructor
        · intro ⟨t, run, kept⟩
          have fewer := intact.overwritten localtime (by omega) call rest full again t run
          rw [kept] at fewer
          exact absurd fewer (Nat.lt_irrefl _)
        · intro distinct
          rw [rollTimes, if_pos full, List.map_cons, List.nodup_append] at distinct
          exact absurd rfl (distinct.2.2 _ again _ List.mem_cons_self)
      · obtain ⟨u, n, before, more, moved, next, contents, names, size, name⟩ :=
          intact.append localtime call small (fun full listed => again ⟨full, listed⟩)
        have onward := ih next (by rw [size]; exact later)
        have runs (t : State) : (machine localtime).Run s ((call :: rest).map Label.append) t ↔
            (machine localtime).Run u (rest.map Label.append) t := by
          rw [List.map_cons]
          exact Machine.Run.cons_iff small moved
        rw [contents, size, name, names] at onward
        simp only [runs, List.flatMap_cons, ← List.append_assoc]
        exact onward

/-- For every roll size and every sequence of messages below it, whatever the clock
reads: when the LogFile is gone, its files hold the messages exactly when the names that
it gave them are distinct. -/
theorem rolling_keeps_iff (disk : Disk) (basename : Bytes) (rollSize : RollSize) (first : Nat)
    (s : State) (made : create localtime disk basename rollSize first = some s)
    (calls : List Call) (short : ∀ call ∈ calls, call.logMsgs.length < rollSize.bytes) :
    (∃ t, (machine localtime).Run s (calls.map .append) t ∧
        t.destroy.onDisk = calls.flatMap Call.logMsgs) ↔
      ((first :: rollTimes rollSize.bytes 0 calls).map
        (getLogFileName localtime basename)).Nodup := by
  obtain ⟨intact, size, name⟩ := create_intact localtime disk basename rollSize first made
  have kept := intact.kept_iff localtime calls (by rw [size]; exact short)
  rw [intact.files, size, name] at kept
  exact kept

end

def eightBytes : RollSize := ⟨8, by decide, by decide⟩

/-- A LogFile made at the beginning of the epoch, on an empty disk. -/
def opened : State :=
  State.rollFile TimeStamp.gmtime ⟨fun _ => none, ⟨ascii "log", eightBytes, 0, none⟩, []⟩ 0

theorem opened_made :
    create TimeStamp.gmtime (fun _ => none) (ascii "log") eightBytes 0 = some opened :=
  if_neg (by decide)

/-- Two messages that do not fit one file, the second at the given time. -/
def twoMessages (now : Nat) : List Call := [⟨0, ascii "first\n"⟩, ⟨now, ascii "next\n"⟩]

/-- A millisecond later the name is another one. -/
theorem rolling_keeps_later :
    ∃ t, (machine TimeStamp.gmtime).Run opened ((twoMessages 1000000).map .append) t ∧
      t.destroy.onDisk = ascii "first\nnext\n" :=
  (rolling_keeps_iff TimeStamp.gmtime _ _ _ 0 opened opened_made (twoMessages 1000000)
    (by decide)).mpr (by decide +kernel)

/-- Within the same millisecond the second file takes the place of the first. -/
theorem rolling_loses :
    (∀ call ∈ twoMessages 999999, call.logMsgs.length < eightBytes.bytes) ∧
      (0 :: (twoMessages 999999).map Call.now).Pairwise (· ≤ ·) ∧
      create TimeStamp.gmtime (fun _ => none) (ascii "log") eightBytes 0 = some opened ∧
      ∃ t, (machine TimeStamp.gmtime).Run opened ((twoMessages 999999).map .append) t ∧
        t.destroy.onDisk = ascii "next\n" ∧
        t.destroy.onDisk ≠ (twoMessages 999999).flatMap Call.logMsgs := by
  refine ⟨by decide, by decide, opened_made, ?_⟩
  obtain ⟨t, run, last⟩ := (machine TimeStamp.gmtime).exists_run_of_play opened
    ((twoMessages 999999).map .append) (fun t => t.destroy.onDisk) (ascii "next\n")
    (by decide +kernel)
  refine ⟨t, run, last, ?_⟩
  rw [last]
  decide

end Tundra.LogFile
