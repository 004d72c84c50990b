import Mathlib.Data.List.Basic
import Tundra.Util.BufferRefinement

set_option autoImplicit false

/- The storage in front of the readable bytes. retrieveAsString reads it from the start on,
while the readable bytes begin at an index that the history decides: kCheapPrepend at first,
0 after a full drain, anything in between later. -/
namespace Tundra.Buffer

open Library

def front (b : Buffer) : Bytes := slice b.buffer 0 b.readerIndex

/-- The front stays as it is, or the readable bytes have been moved back to kCheapPrepend. -/
def FrontKept (b r : Buffer) : Prop :=
  (r.readerIndex = b.readerIndex ∧ r.front = b.front) ∨
    (kCheapPrepend < b.readerIndex ∧ r.readerIndex = kCheapPrepend)

section Front

variable {b r : Buffer}

theorem front_length (b : Buffer) : b.front.length = b.readerIndex := by
  have ordered := b.reader_le
  have bounded := b.writer_le
  rw [front, slice_length _ _ _ (by omega)]
  omega

/-- The storage up to the writer index. -/
theorem take_writer (b : Buffer) : b.buffer.take b.writerIndex = b.front ++ b.content :=
  slice_append b.buffer 0 b.readerIndex b.writerIndex (Nat.zero_le _) b.reader_le

theorem take_storage (b : Buffer) (len : Nat) (within : len ≤ b.readableBytes) :
    b.buffer.take len = (b.front ++ b.content).take len := by
  rw [← take_writer, List.take_take, Nat.min_eq_left]
  unfold readableBytes at within
  omega

theorem FrontKept.refl (b : Buffer) : FrontKept b b := Or.inl ⟨rfl, rfl⟩

theorem FrontKept.trans {s : Buffer} (first : FrontKept b r) (second : FrontKept r s) :
    FrontKept b s := by
  rcases first with ⟨index, same⟩ | ⟨gap, moved⟩
  · rcases second with ⟨index', same'⟩ | ⟨gap', moved'⟩
    · exact Or.inl ⟨index'.trans index, same'.trans same⟩
    · exact Or.inr ⟨index ▸ gap', moved'⟩
  · rcases second with ⟨index', _⟩ | ⟨gap', _⟩
    · exact Or.inr ⟨gap, index'.trans moved⟩
    · omega

theorem makeSpace_front {len : Nat} (done : b.makeSpace len = some r) : FrontKept b r := by
  have ordered := b.reader_le
  have bounded := b.writer_le
  unfold makeSpace at done
  split at done
  · cases done
    have inside : b.readerIndex ≤ b.buffer.length := by omega
    have grown : b.readerIndex ≤ b.writerIndex + len := by omega
    exact Or.inl ⟨rfl, slice_resize b.buffer 0 b.readerIndex _ 0 inside grown⟩
  · split at done
    · rename_i gap
      cases done
      exact Or.inr ⟨gap, rfl⟩
    · cases done

theorem ensureWriteableBytes_front {len : Nat} {s : { r : Buffer // len ≤ r.writableBytes }}
    (done : b.ensureWriteableBytes len = some s) : FrontKept b s.val := by
  obtain ⟨t, made, checked⟩ := Option.bind_eq_some_iff.mp done
  split at checked
  · cases checked
    split at made
    · exact makeSpace_front made
    · cases made
      exact FrontKept.refl b
  · cases checked

theorem copyIn_front (b : Buffer) (data : Bytes) (room : data.length ≤ b.writableBytes) :
    FrontKept b (b.copyIn data room) :=
  Or.inl ⟨rfl, slice_overwrite_before b.buffer data 0 _ _ b.reader_le b.writer_le⟩

theorem append_front {data : Bytes} (done : b.append data = some r) : FrontKept b r := by
  obtain ⟨s, made, rfl⟩ := Option.map_eq_some_iff.mp done
  exact (ensureWriteableBytes_front made).trans (copyIn_front s.val data s.property)

theorem readFd_front (input : Option Bytes) (done : b.readFd input = some r) :
    FrontKept b r := by
  cases input with
  | none =>
      cases done
      exact FrontKept.refl b
  | some data =>
      dsimp only [readFd] at done
      split at done
      · cases done
        exact copyIn_front b _ _
      · exact (copyIn_front b _ _).trans (append_front done)

theorem hasWritten_front {len : Nat} (done : b.hasWritten len = some r) : FrontKept b r := by
  unfold hasWritten at done
  split at done
  · cases done
    exact Or.inl ⟨rfl, rfl⟩
  · cases done

/-- Less than all of the readable bytes: only the reader index moves. All of them: both
indices go to the start. -/
theorem retrieve_cases {len : Nat} (done : b.retrieve len = some r) :
    (len < b.readableBytes ∧ r.readerIndex = b.readerIndex + len ∧
      r.readableBytes = b.readableBytes - len) ∨
    (len = b.readableBytes ∧ r = b.retrieveAll) := by
  unfold retrieve at done
  split at done
  · rename_i within
    split at done
    · rename_i part
      cases done
      refine Or.inl ⟨part, rfl, ?_⟩
      unfold readableBytes
      dsimp only
      omega
    · cases done
      exact Or.inr ⟨by omega, rfl⟩
  · cases done

theorem retrieveUntil_cases {stop : Nat} (done : b.retrieveUntil stop = some r) :
    b.retrieve stop = some r := by
  unfold retrieveUntil at done
  split at done
  · exact done
  · cases done

/-- Behind a front of at most kCheapPrepend bytes nothing is ever moved. -/
theorem FrontKept.stays (kept : FrontKept b r) (low : b.readerIndex ≤ kCheapPrepend) :
    r.readerIndex = b.readerIndex ∧ r.front = b.front := by
  rcases kept with same | ⟨gap, _⟩
  · exact same
  · omega

end Front

def appendAll (b : Buffer) : List Bytes → Option Buffer
  | [] => some b
  | data :: rest => (b.append data).bind fun r => r.appendAll rest

theorem appendAll_front (pieces : List Bytes) (b : Buffer)
    (low : b.readerIndex ≤ kCheapPrepend) :
    ∃ r, b.appendAll pieces = some r ∧ r.content = b.content ++ pieces.flatten ∧
      r.readerIndex = b.readerIndex ∧ r.front = b.front := by
  induction pieces generalizing b with
  | nil => exact ⟨b, rfl, by rw [List.flatten_nil, List.append_nil], rfl, rfl⟩
  | cons data rest ih =>
      obtain ⟨s, appended, content⟩ := append_content b data
      obtain ⟨index, same⟩ := (append_front appended).stays low
      obtain ⟨r, others, all, index', same'⟩ := ih s (by omega)
      refine ⟨r, ?_, ?_, index'.trans index, same'.trans same⟩
      · rw [appendAll, appended, Option.bind_some, others]
      · rw [all, content, List.append_assoc, List.flatten_cons]

/-- The string is right exactly when the storage repeats itself up to there, with the reader
index as the period. -/
theorem retrieveAsString_periodic (b : Buffer) (len : Nat) (within : len ≤ b.readableBytes) :
    (∃ rest, b.retrieveAsString len = some (b.content.take len, rest) ∧
        rest.content = b.content.drop len) ↔
      ∀ i < len, b.buffer[i]? = b.buffer[b.readerIndex + i]? := by
  have reach : b.readerIndex + len ≤ b.writerIndex := by
    unfold readableBytes at within
    have ordered := b.reader_le
    omega
  have ordered := b.reader_le
  have bounded := b.writer_le
  obtain ⟨rest, retrieved, left⟩ := retrieve_content b len within
  have taken : b.retrieveAsString len = some (b.buffer.take len, rest) := by
    rw [retrieveAsString, if_pos within, retrieved, Option.map_some]
  have here (i : Nat) (below : i < len) : (b.content.take len)[i]? =
      b.buffer[b.readerIndex + i]? := by
    rw [List.getElem?_take_of_lt below, content, slice, List.getElem?_drop,
      List.getElem?_take_of_lt (by omega)]
  have same : b.buffer.take len = b.content.take len ↔
      ∀ i < len, b.buffer[i]? = b.buffer[b.readerIndex + i]? := by
    constructor
    · intro equal i below
      rw [← here i below, ← equal, List.getElem?_take_of_lt below]
    · intro repeats
      apply List.ext_getElem?
      intro i
      by_cases below : i < len
      · rw [here i below, List.getElem?_take_of_lt below, repeats i below]
      · rw [List.getElem?_eq_none (by rw [List.length_take]; omega),
          List.getElem?_eq_none (by rw [List.length_take]; omega)]
  rw [← same, taken]
  constructor
  · rintro ⟨other, equal, _⟩
    simp only [Option.some.injEq, Prod.mk.injEq] at equal
    exact equal.1
  · intro equal
    exact ⟨rest, by rw [equal], left⟩

/-- A text read from the start of its storage, behind a front of one repeated byte. -/
theorem take_replicate_append (fill : UInt8) (gap : Nat) (positive : 0 < gap) (text : Bytes) :
    (List.replicate gap fill ++ text).take text.length = text ↔ ∀ x ∈ text, x = fill := by
  induction text with
  | nil => simp
  | cons x rest ih =>
      obtain ⟨gap, rfl⟩ : ∃ n, gap = n + 1 := ⟨gap - 1, by omega⟩
      rw [List.replicate_succ, List.cons_append, List.length_cons, List.take_succ_cons,
        List.cons.injEq, List.forall_mem_cons]
      constructor
      · rintro ⟨rfl, equal⟩
        rw [← List.singleton_append, ← List.append_assoc, ← List.replicate_succ'] at equal
        exact ⟨rfl, ih.mp equal⟩
      · rintro ⟨rfl, all⟩
        refine ⟨rfl, ?_⟩
        rw [← List.singleton_append, ← List.append_assoc, ← List.replicate_succ']
        exact ih.mpr all

/-- The calls of the public interface. `write` is the caller's own copy to beginWrite(),
before a hasWritten. -/
inductive PublicOp
  | basic (op : BufferOp)
  | write (data : Bytes)
  | retrieveAsString (len : Nat)
  | unwrite (len : Nat)
  | prepend (data : Bytes)

def PublicOp.Legal (b : Buffer) : PublicOp → Prop
  | .basic op => b.Legal op
  | .write data => data.length ≤ b.writableBytes
  | .retrieveAsString len => len ≤ b.readableBytes
  | .unwrite len => len < b.readableBytes
  | .prepend data => data.length ≤ b.prependableBytes

/-- The copy stays inside the storage. -/
theorem writer_le_overwrite (b : Buffer) (data : Bytes) (room : data.length ≤ b.writableBytes) :
    b.writerIndex ≤ (overwrite b.buffer b.writerIndex data).length := by
  have bounded := b.writer_le
  unfold writableBytes at room
  have kept := overwrite_length b.buffer data b.writerIndex (by omega)
  exact Nat.le_trans bounded (Nat.le_of_eq kept.symm)

def write (b : Buffer) (data : Bytes) (room : data.length ≤ b.writableBytes) : Buffer where
  buffer := overwrite b.buffer b.writerIndex data
  readerIndex := b.readerIndex
  writerIndex := b.writerIndex
  reader_le := b.reader_le
  writer_le := writer_le_overwrite b data room

def performPublic (b : Buffer) : PublicOp → Option Buffer
  | .basic op => b.perform op
  | .write data => if room : data.length ≤ b.writableBytes then some (b.write data room) else none
  | .retrieveAsString len => (b.retrieveAsString len).map Prod.snd
  | .unwrite len => b.unwrite len
  | .prepend data => b.prepend data

def publicMachine : Machine Buffer PublicOp := ⟨PublicOp.Legal, performPublic⟩

/-- An empty buffer has been drained, or nothing has been in it yet. -/
def Untouched (b : Buffer) : Prop :=
  b.readableBytes = 0 → b.readerIndex = 0 ∨
    (b.readerIndex = kCheapPrepend ∧ b.front = List.replicate kCheapPrepend 0)

section Public

variable {b r : Buffer}

theorem fresh_front : fresh.front = List.replicate kCheapPrepend 0 := by decide +kernel

theorem fresh_untouched : fresh.Untouched := fun _ => Or.inr ⟨rfl, fresh_front⟩

theorem Untouched.kept (clean : b.Untouched) (kept : FrontKept b r)
    (grown : b.readableBytes ≤ r.readableBytes) : r.Untouched := by
  intro empty
  rcases clean (by omega) with zero | ⟨index, blank⟩
  · obtain ⟨same, _⟩ := kept.stays (by omega)
    exact Or.inl (same.trans zero)
  · obtain ⟨same, front⟩ := kept.stays (by omega)
    exact Or.inr ⟨same.trans index, front.trans blank⟩

theorem Untouched.of_readable (some : 0 < r.readableBytes) : r.Untouched := by
  intro empty
  omega

theorem retrieve_untouched {len : Nat} (done : b.retrieve len = some r) : r.Untouched := by
  rcases retrieve_cases done with ⟨part, _, left⟩ | ⟨_, rfl⟩
  · exact Untouched.of_readable (by omega)
  · exact fun _ => Or.inl rfl

/-- An operation that only adds bytes behind. -/
theorem readableBytes_le_of_append {data : Bytes} (content : r.content = b.content ++ data) :
    b.readableBytes ≤ r.readableBytes := by
  rw [← content_length, ← content_length, content, List.length_append]
  omega

theorem perform_untouched (clean : b.Untouched) (op : BufferOp) (legal : b.Legal op)
    (done : b.perform op = some r) : r.Untouched := by
  obtain ⟨s, again, effect, _⟩ := perform_effect b op legal
  obtain rfl : r = s := Option.some.inj (done.symm.trans again)
  generalize after : r.content = queue at effect
  generalize before : b.content = old at effect
  cases effect with
  | append data =>
      rw [← before] at after
      exact clean.kept (append_front done) (readableBytes_le_of_append after)
  | retrieve len => exact retrieve_untouched done
  | retrieveUntil stop => exact retrieve_untouched (retrieveUntil_cases done)
  | retrieveAll =>
      cases done
      exact fun _ => Or.inl rfl
  | ensureWriteableBytes len =>
      obtain ⟨s, made, rfl⟩ := Option.map_eq_some_iff.mp done
      refine clean.kept (ensureWriteableBytes_front made) (Nat.le_of_eq ?_)
      rw [← content_length, ← content_length, before, after]
  | hasWritten data =>
      rw [← before] at after
      exact clean.kept (hasWritten_front done) (readableBytes_le_of_append after)
  | readFd data =>
      rw [← before] at after
      exact clean.kept (readFd_front (some data) done) (readableBytes_le_of_append after)
  | readFdError =>
      cases done
      exact clean

theorem prepend_untouched (clean : b.Untouched) {data : Bytes} (done : b.prepend data = some r) :
    r.Untouched := by
  unfold prepend at done
  split at done
  · rename_i room
    cases done
    cases data with
    | nil => exact clean.kept (Or.inl ⟨rfl, by simp [front, overwrite]⟩) (Nat.le_refl _)
    | cons x rest =>
        refine Untouched.of_readable ?_
        have ordered := b.reader_le
        unfold prependableBytes at room
        simp only [readableBytes, List.length_cons] at room ⊢
        omega
  · cases done

theorem performPublic_untouched (clean : b.Untouched) (op : PublicOp) (legal : op.Legal b)
    (done : b.performPublic op = some r) : r.Untouched := by
  cases op with
  | basic op => exact perform_untouched clean op legal done
  | write data =>
      dsimp only [performPublic] at done
      split at done
      · cases done
        have same := slice_overwrite_before b.buffer data 0 _ _ b.reader_le b.writer_le
        exact clean.kept (Or.inl ⟨rfl, same⟩) (Nat.le_refl _)
      · cases done
  | retrieveAsString len =>
      obtain ⟨s, taken, rfl⟩ := Option.map_eq_some_iff.mp done
      unfold retrieveAsString at taken
      split at taken
      · obtain ⟨rest, retrieved, rfl⟩ := Option.map_eq_some_iff.mp taken
        exact retrieve_untouched retrieved
      · cases taken
  | unwrite len =>
      dsimp only [performPublic, unwrite] at done
      split at done
      · rename_i within
        cases done
        refine Untouched.of_readable ?_
        unfold readableBytes at within ⊢
        dsimp only
        omega
      · cases done
  | prepend data => exact prepend_untouched clean done

theorem publicMachine_untouched {ops : List PublicOp} (run : publicMachine.Run fresh ops b) :
    b.Untouched := by
  apply run.invariant
  · intro s op t clean legal done
    exact performPublic_untouched clean op legal done
  · exact fresh_untouched

/-- What is appended to an empty buffer comes back as one string exactly when the buffer has
been drained before, or only zeros were appended. -/
theorem retrieveAllAsString_appended (clean : b.Untouched) (empty : b.content = [])
    (pieces : List Bytes) :
    (∃ r rest, b.appendAll pieces = some r ∧
        r.retrieveAllAsString = some (pieces.flatten, rest) ∧ rest.content = []) ↔
      b.readerIndex = 0 ∨ ∀ x ∈ pieces.flatten, x = 0 := by
  have start := clean ((readableBytes_eq_zero b).mpr empty)
  obtain ⟨r, appended, content, index, same⟩ :=
    appendAll_front pieces b (by rcases start with zero | ⟨index, _⟩ <;> omega)
  rw [empty, List.nil_append] at content
  have length : r.readableBytes = pieces.flatten.length := by rw [← content_length, content]
  have text : r.buffer.take r.readableBytes =
      (b.front ++ pieces.flatten).take pieces.flatten.length := by
    rw [take_storage r _ (Nat.le_refl _), content, same, length]
  have string : (∃ r rest, b.appendAll pieces = some r ∧
        r.retrieveAllAsString = some (pieces.flatten, rest) ∧ rest.content = []) ↔
      (b.front ++ pieces.flatten).take pieces.flatten.length = pieces.flatten := by
    rw [← text]
    constructor
    · rintro ⟨s, rest, again, taken, _⟩
      obtain rfl : r = s := Option.some.inj (appended.symm.trans again)
      rw [retrieveAllAsString_eq, Option.some.injEq, Prod.mk.injEq] at taken
      exact taken.1
    · intro equal
      exact ⟨r, r.retrieveAll, appended, by rw [retrieveAllAsString_eq, equal],
        retrieveAll_content r⟩
  rw [string]
  rcases start with zero | ⟨index, blank⟩
  · have none : b.front = [] := by
      rw [← List.length_eq_zero_iff, front_length, zero]
    rw [none, List.nil_append, List.take_length]
    simp [zero]
  · rw [blank, take_replicate_append 0 kCheapPrepend (by decide)]
    have other : b.readerIndex ≠ 0 := by rw [index]; decide
    simp [other]

/-- retrieveAsString in every state that the public interface reaches: the string is the
front of the content exactly when the storage repeats itself with the reader index as the
period, and what is appended to an empty buffer comes back whole exactly when the buffer has
been drained before, or only zeros were appended. -/
theorem retrieveAsString_iff (ops : List PublicOp) (b : Buffer)
    (run : publicMachine.Run fresh ops b) :
    (∀ len ≤ b.readableBytes,
      ((∃ rest, b.retrieveAsString len = some (b.content.take len, rest) ∧
          rest.content = b.content.drop len) ↔
        ∀ i < len, b.buffer[i]? = b.buffer[b.readerIndex + i]?)) ∧
    (b.content = [] → ∀ pieces : List Bytes,
      ((∃ r rest, b.appendAll pieces = some r ∧
          r.retrieveAllAsString = some (pieces.flatten, rest) ∧ rest.content = []) ↔
        b.readerIndex = 0 ∨ ∀ x ∈ pieces.flatten, x = 0)) := by
  refine ⟨retrieveAsString_periodic b, fun empty pieces => ?_⟩
  exact retrieveAllAsString_appended (publicMachine_untouched run) empty pieces

end Public

/-- A buffer that has been drained hands over what is appended later. -/
theorem retrieveAsString_drained :
    ∃ b, publicMachine.Run fresh [.basic (.append [65]), .basic .retrieveAll] b ∧
      ∃ r rest, b.appendAll [[66], [67, 68]] = some r ∧
        r.retrieveAllAsString = some ([66, 67, 68], rest) ∧ rest.content = [] := by
  have step (b : Buffer) (data : Bytes) :
      publicMachine.step b (.basic (.append data)) = b.append data := rfl
  obtain ⟨r, appended, _⟩ := append_content fresh [65]
  have run : publicMachine.Run fresh [.basic (.append [65]), .basic .retrieveAll] r.retrieveAll :=
    .cons trivial ((step fresh [65]).trans appended) (.single trivial rfl)
  exact ⟨_, run, ((retrieveAsString_iff _ _ run).2 (retrieveAll_content r) _).mpr (Or.inl rfl)⟩

/-- The first string that a new buffer is asked for is made of zeros. -/
theorem retrieveAsString_zeros :
    ¬ ∃ r rest, fresh.appendAll [[65]] = some r ∧
        r.retrieveAllAsString = some ([65], rest) ∧ rest.content = [] := by
  intro whole
  rcases (retrieveAllAsString_appended fresh_untouched fresh_content [[65]]).mp whole with
    zero | zeros
  · have eight : kCheapPrepend = 0 := zero
    cases eight
  · exact absurd (zeros 65 (List.mem_singleton_self 65)) (by decide)

end Tundra.Buffer
