import Mathlib.Data.List.Basic
import Tundra.Util.Buffer

set_option autoImplicit false

/- The Buffer as a queue of bytes: each operation is described by what it does to
the readable content, whatever the indices are. -/
namespace Tundra.Buffer

open Library

@[simp] theorem content_length (b : Buffer) : b.content.length = b.readableBytes :=
  slice_length b.buffer b.readerIndex b.writerIndex b.writer_le

theorem readableBytes_eq_zero (b : Buffer) : b.readableBytes = 0 ↔ b.content = [] := by
  rw [← content_length, List.length_eq_zero_iff]

@[simp] theorem fresh_content : fresh.content = [] := slice_self _ _

@[simp] theorem retrieveAll_content (b : Buffer) : b.retrieveAll.content = [] := slice_self _ _

theorem retrieve_content (b : Buffer) (len : Nat) (within : len ≤ b.readableBytes) :
    ∃ r, b.retrieve len = some r ∧ r.content = b.content.drop len := by
  unfold retrieve
  rw [dif_pos within]
  split
  · refine ⟨_, rfl, ?_⟩
    exact (slice_drop b.buffer b.readerIndex b.writerIndex len).symm
  · refine ⟨_, rfl, ?_⟩
    rw [retrieveAll_content, List.drop_eq_nil_of_le]
    rw [content_length]
    omega

theorem retrieveUntil_content (b : Buffer) (stop : Nat) (within : stop ≤ b.readableBytes) :
    ∃ r, b.retrieveUntil stop = some r ∧ r.content = b.content.drop stop := by
  unfold retrieveUntil
  rw [if_pos within]
  exact retrieve_content b stop within

/-- The caller's condition, too little room behind the writer index, is what
keeps the assertion of the moving branch true. -/
theorem makeSpace_content (b : Buffer) (len : Nat) (short : b.writableBytes < len) :
    ∃ r, b.makeSpace len = some r ∧ r.content = b.content ∧ len ≤ r.writableBytes := by
  have ordered := b.reader_le
  have bounded := b.writer_le
  unfold makeSpace
  split
  · refine ⟨_, rfl, ?_, ?_⟩
    · exact slice_resize b.buffer _ _ _ 0 bounded (Nat.le_add_right _ _)
    · simp only [writableBytes, resize_length]
      omega
  · rename_i roomy
    have gap : kCheapPrepend < b.readerIndex := by
      unfold prependableBytes at roomy
      omega
    rw [dif_pos gap]
    have inside : kCheapPrepend ≤ b.buffer.length := by omega
    refine ⟨_, rfl, ?_, ?_⟩
    · exact slice_overwrite_self b.buffer b.content kCheapPrepend inside
    · simp only [writableBytes, overwrite_length _ _ _ (b.moved_le gap), content_length,
        readableBytes]
      unfold writableBytes prependableBytes at roomy
      omega

theorem ensureWriteableBytes_content (b : Buffer) (len : Nat) :
    ∃ r, b.ensureWriteableBytes len = some r ∧ r.val.content = b.content := by
  unfold ensureWriteableBytes
  split
  · rename_i short
    obtain ⟨r, made, same, room⟩ := makeSpace_content b len short
    rw [made]
    exact ⟨⟨r, room⟩, by rw [Option.bind_some, dif_pos room], same⟩
  · rename_i enough
    have room : len ≤ b.writableBytes := by omega
    exact ⟨⟨b, room⟩, by rw [Option.bind_some, dif_pos room], rfl⟩

theorem copyIn_content (b : Buffer) (data : Bytes) (room : data.length ≤ b.writableBytes) :
    (b.copyIn data room).content = b.content ++ data :=
  slice_overwrite_end b.buffer data b.readerIndex b.writerIndex b.reader_le b.writer_le

/-- With room behind the writer index the storage stays where it is. -/
theorem append_of_room (b : Buffer) (data : Bytes) (room : data.length ≤ b.writableBytes) :
    b.append data = some (b.copyIn data room) := by
  have enough : ¬ b.writableBytes < data.length := by omega
  simp only [append, ensureWriteableBytes, enough, ↓reduceIte, Option.bind_some, room, ↓reduceDIte,
    Option.map_some]

theorem append_content (b : Buffer) (data : Bytes) :
    ∃ r, b.append data = some r ∧ r.content = b.content ++ data := by
  obtain ⟨r, made, same⟩ := ensureWriteableBytes_content b data.length
  refine ⟨r.val.copyIn data r.property, ?_, ?_⟩
  · simp only [append, made, Option.map_some]
  · rw [copyIn_content, same]

/-- readFd appends exactly the bytes the kernel delivered. -/
theorem readFd_content (b : Buffer) (data : Bytes) :
    ∃ r, b.readFd (some data) = some r ∧ r.content = b.content ++ data.take b.offered := by
  unfold readFd
  dsimp only
  split
  · exact ⟨_, rfl, copyIn_content _ _ _⟩
  · obtain ⟨r, made, same⟩ := append_content
      (b.copyIn ((data.take b.offered).take b.writableBytes)
        (by simp only [List.length_take]; omega))
      ((data.take b.offered).drop b.writableBytes)
    refine ⟨r, made, ?_⟩
    rw [same, copyIn_content, List.append_assoc, List.take_append_drop]

/-- What retrieveAllAsString hands over are the first bytes of the storage. -/
theorem retrieveAllAsString_eq (b : Buffer) :
    b.retrieveAllAsString = some (b.buffer.take b.readableBytes, b.retrieveAll) := by
  unfold retrieveAllAsString retrieveAsString retrieve
  simp only [Nat.le_refl, ↓reduceIte, ↓reduceDIte, Nat.lt_irrefl, Option.map_some]

end Tundra.Buffer
