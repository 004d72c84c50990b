import Mathlib.Data.List.Infix
import Tundra.Util.BufferFront
import Tundra.Util.BufferInt

set_option autoImplicit false

/- The cheap prepend area: how much of it a history leaves, and what prepend puts there. The
copy goes to the start of the storage, wherever the readable bytes begin. -/
namespace Tundra.Buffer

open Library

/-- The number of readable bytes after the operations, and the number of bytes retrieved since
the buffer was last drained, `none` as long as it has not been. -/
def track (t : Nat × Option Nat) : BufferOp → Nat × Option Nat
  | .append data => (t.1 + data.length, t.2)
  | .retrieve len | .retrieveUntil len =>
      if len < t.1 then (t.1 - len, t.2.map (· + len)) else (0, some 0)
  | .retrieveAll => (0, some 0)
  | .hasWritten len => (t.1 + len, t.2)
  | .readFd (some data) => (t.1 + data.length, t.2)
  | .ensureWriteableBytes _ | .readFd none => t

def history (ops : List BufferOp) : Nat × Option Nat := ops.foldl track (0, none)

/-- The buffer has never been drained, or enough has been retrieved since it last was. -/
def Reserved (ops : List BufferOp) : Prop :=
  ∀ taken, (history ops).2 = some taken → kCheapPrepend ≤ taken

/-- What the history says about the reader index. -/
structure Tracked (t : Nat × Option Nat) (b : Buffer) : Prop where
  readable : t.1 = b.readableBytes
  undrained : t.2 = none → kCheapPrepend ≤ b.readerIndex ∧
    (b.readableBytes = 0 →
      b.readerIndex = kCheapPrepend ∧ b.front = List.replicate kCheapPrepend 0)
  drained : ∀ taken, t.2 = some taken →
    (b.readerIndex = taken ∨ (kCheapPrepend ≤ taken ∧ kCheapPrepend ≤ b.readerIndex)) ∧
      (b.readableBytes = 0 → taken = 0)

section Prepend

variable {b r : Buffer} {t : Nat × Option Nat}

/-- Bytes are added behind. -/
theorem Tracked.kept (tracked : Tracked t b) (kept : FrontKept b r) (more : Nat)
    (grown : r.readableBytes = b.readableBytes + more) : Tracked (t.1 + more, t.2) r := by
  refine ⟨by rw [tracked.readable, grown], ?_, ?_⟩
  · intro never
    obtain ⟨reserved, blank⟩ := tracked.undrained never
    refine ⟨?_, fun empty => ?_⟩
    · rcases kept with ⟨same, _⟩ | ⟨_, moved⟩ <;> omega
    · obtain ⟨index, zeros⟩ := blank (by omega)
      obtain ⟨same, front⟩ := kept.stays (by omega)
      exact ⟨same.trans index, front.trans zeros⟩
  · intro taken since
    obtain ⟨place, start⟩ := tracked.drained taken since
    refine ⟨?_, fun empty => start (by omega)⟩
    rcases kept with ⟨same, _⟩ | ⟨gap, moved⟩ <;> omega

theorem Tracked.retrieve (tracked : Tracked t b) {len : Nat} (done : b.retrieve len = some r) :
    Tracked (if len < t.1 then (t.1 - len, t.2.map (· + len)) else (0, some 0)) r := by
  rcases retrieve_cases done with ⟨part, index, left⟩ | ⟨all, rfl⟩
  · rw [if_pos (by rw [tracked.readable]; exact part)]
    refine ⟨by rw [tracked.readable, left], ?_, ?_⟩
    · intro never
      obtain ⟨reserved, _⟩ := tracked.undrained (Option.map_eq_none_iff.mp never)
      exact ⟨by omega, fun empty => by omega⟩
    · intro taken since
      obtain ⟨before, earlier, rfl⟩ := Option.map_eq_some_iff.mp since
      obtain ⟨place, _⟩ := tracked.drained before earlier
      exact ⟨by omega, fun empty => by omega⟩
  · rw [if_neg (by rw [tracked.readable]; omega)]
    refine ⟨rfl, fun never => (by cases never), ?_⟩
    intro taken since
    cases since
    exact ⟨Or.inl rfl, fun _ => rfl⟩

theorem perform_tracked (tracked : Tracked t b) (op : BufferOp) (legal : b.Legal op)
    (done : b.perform op = some r) : Tracked (track t op) r := by
  obtain ⟨s, again, effect, _⟩ := perform_effect b op legal
  obtain rfl : r = s := Option.some.inj (done.symm.trans again)
  have grown {data : Bytes} (content : r.content = b.content ++ data) :
      r.readableBytes = b.readableBytes + data.length := by
    rw [← content_length, ← content_length, content, List.length_append]
  generalize after : r.content = queue at effect
  generalize before : b.content = old at effect
  cases effect with
  | append data =>
      rw [← before] at after
      exact tracked.kept (append_front done) _ (grown after)
  | retrieve len => exact tracked.retrieve done
  | retrieveUntil stop => exact tracked.retrieve (retrieveUntil_cases done)
  | retrieveAll =>
      cases done
      refine ⟨rfl, fun never => (by cases never), ?_⟩
      intro taken since
      cases since
      exact ⟨Or.inl rfl, fun _ => rfl⟩
  | ensureWriteableBytes len =>
      obtain ⟨s, made, rfl⟩ := Option.map_eq_some_iff.mp done
      refine tracked.kept (ensureWriteableBytes_front made) 0 ?_
      rw [← content_length, ← content_length, before, after, Nat.add_zero]
  | hasWritten data =>
      rw [← before] at after
      exact tracked.kept (hasWritten_front done) _ (grown after)
  | readFd data =>
      rw [← before] at after
      exact tracked.kept (readFd_front (some data) done) _ (grown after)
  | readFdError =>
      cases done
      exact tracked

theorem run_tracked {ops : List BufferOp} (run : machine.Run fresh ops b) :
    Tracked (history ops) b := by
  induction run with
  | nil =>
      refine ⟨rfl, fun _ => ⟨Nat.le_refl _, fun _ => ⟨rfl, fresh_front⟩⟩, ?_⟩
      intro taken since
      cases since
  | snoc _ legal done ih =>
      rw [history, List.foldl_append]
      exact perform_tracked ih _ legal done

theorem Tracked.reserved_iff {ops : List BufferOp} (tracked : Tracked (history ops) b) :
    kCheapPrepend ≤ b.prependableBytes ↔ Reserved ops := by
  unfold prependableBytes Reserved
  constructor
  · intro enough taken since
    obtain ⟨place, _⟩ := tracked.drained taken since
    omega
  · intro reserved
    cases since : (history ops).2 with
    | none => exact (tracked.undrained since).1
    | some taken =>
        obtain ⟨place, _⟩ := tracked.drained taken since
        have enough := reserved taken since
        omega

/-- The copy to the start of the storage leaves the readable bytes alone. In front of them is
the end of the data followed by what was there before. -/
theorem prepend_content (b : Buffer) (data : Bytes) (room : data.length ≤ b.prependableBytes) :
    ∃ r, b.prepend data = some r ∧
      r.content = (data ++ slice b.buffer data.length b.readerIndex).drop
        (b.readerIndex - data.length) ++ b.content := by
  have ordered := b.reader_le
  have bounded := b.writer_le
  unfold prepend
  rw [dif_pos room]
  unfold prependableBytes at room
  refine ⟨_, rfl, ?_⟩
  have whole : slice (overwrite b.buffer 0 data) 0 b.readerIndex =
      data ++ slice b.buffer data.length b.readerIndex := by
    have first := slice_overwrite_self b.buffer data 0 (Nat.zero_le _)
    rw [Nat.zero_add] at first
    rw [slice_append _ 0 data.length b.readerIndex (Nat.zero_le _) room, first,
      slice_overwrite_after _ _ _ _ _ (by omega) (Nat.zero_le _)]
  show slice (overwrite b.buffer 0 data) (b.readerIndex - data.length) b.writerIndex = _
  rw [slice_append _ _ b.readerIndex b.writerIndex (Nat.sub_le _ _) ordered, ← whole, slice_drop,
    Nat.zero_add, slice_overwrite_after _ _ b.readerIndex b.writerIndex _ (by omega)
    (Nat.zero_le _)]
  rfl

theorem prepend_iff (b : Buffer) (data : Bytes) (room : data.length ≤ b.prependableBytes) :
    (∃ r, b.prepend data = some r ∧ r.content = data ++ b.content) ↔
      data <:+ data ++ slice b.buffer data.length b.readerIndex := by
  have ordered := b.reader_le
  have bounded := b.writer_le
  obtain ⟨r, done, content⟩ := prepend_content b data room
  have length : (data ++ slice b.buffer data.length b.readerIndex).length - data.length =
      b.readerIndex - data.length := by
    rw [List.length_append, slice_length _ _ _ (by omega)]
    omega
  rw [List.suffix_iff_eq_drop, length]
  constructor
  · rintro ⟨s, again, whole⟩
    obtain rfl : r = s := Option.some.inj (done.symm.trans again)
    exact List.append_cancel_right (whole.symm.trans content)
  · intro ends
    exact ⟨r, done, by rw [content, ← ends]⟩

theorem int32_bytes_eq_zero (n : Int32) :
    (IntValue.int32 n).bytes = List.replicate 4 0 ↔ n = 0 := by
  have small : n.toUInt32.toNat < 256 ^ 4 := n.toUInt32.toNat_lt
  rw [IntValue.bytes, littleEndian_eq_zero 4 _ small]
  constructor
  · intro zero
    have same : n.toUInt32 = (0 : Int32).toUInt32 := UInt32.toNat_inj.mp zero
    exact congrArg Int32.ofUInt32 same
  · rintro rfl
    rfl

/-- In front of the readable bytes of a new buffer there are zeros: the length goes to the
first four of them, and the last four are read. -/
theorem prependInt32_blank (index : b.readerIndex = kCheapPrepend)
    (blank : b.front = List.replicate kCheapPrepend 0) (n : Int32) :
    ∃ r, b.prependInt32 n = some r ∧ r.content = List.replicate 4 0 ++ b.content := by
  have length : (IntValue.int32 n).bytes.length = 4 := littleEndian_length 4 _
  have room : (IntValue.int32 n).bytes.length ≤ b.prependableBytes := by
    rw [length, prependableBytes, index]
    decide
  have gap : slice b.buffer 4 b.readerIndex = List.replicate 4 0 := by
    have behind := slice_drop b.buffer 0 b.readerIndex 4
    rw [Nat.zero_add] at behind
    rw [← behind]
    show b.front.drop 4 = _
    rw [blank]
    rfl
  obtain ⟨r, prepended, content⟩ := prepend_content b _ room
  refine ⟨r, prepended, ?_⟩
  have after : b.readerIndex - 4 = (IntValue.int32 n).bytes.length := by
    rw [length, index]
    rfl
  rw [content, length, gap, after, List.drop_left]

/-- A drained buffer has no room for the length. -/
theorem prependInt32_drained (index : b.readerIndex = 0) (n : Int32) : b.prependInt32 n = none := by
  have short : ¬ (IntValue.int32 n).bytes.length ≤ b.prependableBytes := by
    rw [show (IntValue.int32 n).bytes.length = 4 from littleEndian_length 4 _, prependableBytes,
      index]
    decide
  exact dif_neg short

/-- The length in front of a message that has been assembled in an empty buffer. -/
theorem prependInt32_iff {ops : List BufferOp} (tracked : Tracked (history ops) b)
    (empty : b.content = []) (message : List Bytes) (n : Int32) :
    (∃ r s, b.appendAll message = some r ∧ r.prependInt32 n = some s ∧
        s.content = (IntValue.int32 n).bytes ++ message.flatten) ↔
      (history ops).2 = none ∧ n = 0 := by
  have nothing := (readableBytes_eq_zero b).mpr empty
  cases since : (history ops).2 with
  | none =>
      obtain ⟨index, zeros⟩ := (tracked.undrained since).2 nothing
      obtain ⟨r, appended, content, index', same⟩ :=
        appendAll_front message b (Nat.le_of_eq index)
      rw [empty, List.nil_append] at content
      obtain ⟨s, prepended, result⟩ :=
        prependInt32_blank (index'.trans index) (same.trans zeros) n
      rw [content] at result
      rw [← int32_bytes_eq_zero]
      constructor
      · rintro ⟨r', s', again, done, whole⟩
        obtain rfl : r = r' := Option.some.inj (appended.symm.trans again)
        obtain rfl : s = s' := Option.some.inj (prepended.symm.trans done)
        exact ⟨rfl, List.append_cancel_right (whole.symm.trans result)⟩
      · rintro ⟨_, zero⟩
        exact ⟨r, s, appended, prepended, by rw [result, zero]⟩
  | some taken =>
      obtain ⟨place, start⟩ := tracked.drained taken since
      have index : b.readerIndex = 0 := by
        have zero := start nothing
        have reserve : kCheapPrepend = 8 := rfl
        omega
      obtain ⟨r, appended, _, index', _⟩ :=
        appendAll_front message b (by rw [index]; exact Nat.zero_le _)
      constructor
      · rintro ⟨r', s, again, done, _⟩
        obtain rfl : r = r' := Option.some.inj (appended.symm.trans again)
        rw [prependInt32_drained (index'.trans index)] at done
        cases done
      · rintro ⟨never, _⟩
        cases never

/-- The cheap prepend area. It is kept exactly in the histories that have not drained the
buffer or have retrieved enough since. A prepend that finds room gives the data in front of
the content exactly when the data ends itself followed by the rest of the front. A length
in front of an assembled message arrives exactly when the buffer has never been drained and
the length is 0. -/
theorem cheap_prepend_iff (ops : List BufferOp) (b : Buffer) (run : machine.Run fresh ops b) :
    (kCheapPrepend ≤ b.prependableBytes ↔ Reserved ops) ∧
    (∀ data : Bytes, data.length ≤ b.prependableBytes →
      ((∃ r, b.prepend data = some r ∧ r.content = data ++ b.content) ↔
        data <:+ data ++ slice b.buffer data.length b.readerIndex)) ∧
    (b.content = [] → ∀ (message : List Bytes) (n : Int32),
      ((∃ r s, b.appendAll message = some r ∧ r.prependInt32 n = some s ∧
          s.content = (IntValue.int32 n).bytes ++ message.flatten) ↔
        (history ops).2 = none ∧ n = 0)) := by
  have tracked := run_tracked run
  exact ⟨tracked.reserved_iff, prepend_iff b, fun empty => prependInt32_iff tracked empty⟩

end Prepend

/-- A byte that has been read goes back in front of the bytes behind it, with the reserve left
in place. -/
theorem cheap_prepend_whole :
    ∃ b, machine.Run fresh [.append [65, 66, 67], .retrieve 1] b ∧ b.content = [66, 67] ∧
      kCheapPrepend ≤ b.prependableBytes ∧
      ∃ r, b.prepend [65] = some r ∧ r.content = [65, 66, 67] := by
  obtain ⟨b, run, seen⟩ := machine.exists_run_of_play fresh [.append [65, 66, 67], .retrieve 1]
    (fun b => (b.content, b.prependableBytes, slice b.buffer 1 b.readerIndex))
    ([66, 67], 9, List.replicate 7 0 ++ [65]) (by decide +kernel)
  simp only [Prod.mk.injEq] at seen
  obtain ⟨content, room, gap⟩ := seen
  obtain ⟨reserved, whole, _⟩ := cheap_prepend_iff _ b run
  refine ⟨b, run, content, reserved.mpr ?_, ?_⟩
  · intro taken drained
    cases drained
  · have fits : ([65] : Bytes).length ≤ b.prependableBytes := by
      rw [room]
      decide
    have again : [65] <:+ [65] ++ slice b.buffer [65].length b.readerIndex := by
      rw [List.length_singleton, gap, ← List.append_assoc]
      exact List.suffix_append _ _
    obtain ⟨r, done, result⟩ := (whole [65] fits).mpr again
    refine ⟨r, done, ?_⟩
    rw [result, content]
    rfl

/-- A buffer that has been drained has no room in front, and the length 1 does not arrive in
front of a message in a new buffer. -/
theorem cheap_prepend_fails :
    (∃ b, machine.Run fresh [.append [65], .retrieveAll] b ∧ b.prependableBytes = 0) ∧
      ¬ ∃ r s, fresh.appendAll [[65]] = some r ∧ r.prependInt32 1 = some s ∧
        s.content = [1, 0, 0, 0, 65] := by
  have step (b : Buffer) (data : Bytes) : machine.step b (.append data) = b.append data := rfl
  obtain ⟨r, appended, _⟩ := append_content fresh [65]
  refine ⟨⟨r.retrieveAll, ?_, rfl⟩, ?_⟩
  · exact .cons trivial ((step fresh [65]).trans appended) (.single trivial rfl)
  · intro arrived
    have one := ((prependInt32_iff (run_tracked .nil) fresh_content [[65]] 1).mp arrived).2
    exact absurd one (by decide)

end Tundra.Buffer
