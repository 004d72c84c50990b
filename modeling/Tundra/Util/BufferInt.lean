import Mathlib.Data.List.Basic
import Mathlib.Algebra.Ring.Nat
import Tundra.Util.BufferQueue

set_option autoImplicit false

/- The integers of util/Buffer. They are copied as they lie in memory, the lowest byte first.
Every peekInt copies its bytes into a variable of one byte, and every retrieveInt takes one
byte, whatever the width is. -/
namespace Tundra

/-- The low `size` bytes of a number, the lowest first. -/
def littleEndian : Nat → Nat → Bytes
  | 0, _ => []
  | size + 1, n => UInt8.ofNat n :: littleEndian size (n / 256)

@[simp] theorem littleEndian_length (size n : Nat) : (littleEndian size n).length = size := by
  induction size generalizing n with
  | zero => rfl
  | succ size ih => rw [littleEndian, List.length_cons, ih]

theorem littleEndian_eq_zero (size n : Nat) (small : n < 256 ^ size) :
    littleEndian size n = List.replicate size 0 ↔ n = 0 := by
  induction size generalizing n with
  | zero =>
      have zero : n = 0 := by simpa using small
      exact ⟨fun _ => zero, fun _ => rfl⟩
  | succ size ih =>
      have less : n / 256 < 256 ^ size := by
        rw [Nat.pow_succ] at small
        exact Nat.div_lt_of_lt_mul (by rw [Nat.mul_comm]; exact small)
      have low : UInt8.ofNat n = 0 ↔ n % 256 = 0 := by
        rw [← UInt8.toNat_inj, UInt8.toNat_ofNat']
        rfl
      rw [littleEndian, List.replicate_succ, List.cons.injEq, ih _ less, low]
      omega

inductive Width
  | int8
  | int16
  | int32
  | int64
deriving DecidableEq

/-- sizeof. -/
def Width.size : Width → Nat
  | .int8 => 1
  | .int16 => 2
  | .int32 => 4
  | .int64 => 8

theorem Width.size_pos (w : Width) : 1 ≤ w.size := by
  cases w <;> decide

theorem Width.size_eq_one (w : Width) : w.size = 1 ↔ w = .int8 := by
  cases w <;> decide

inductive IntValue
  | int8 (x : Int8)
  | int16 (x : Int16)
  | int32 (x : Int32)
  | int64 (x : Int64)
deriving DecidableEq

namespace IntValue

def width : IntValue → Width
  | .int8 _ => .int8
  | .int16 _ => .int16
  | .int32 _ => .int32
  | .int64 _ => .int64

/-- The value in memory. -/
def bytes : IntValue → Bytes
  | .int8 x => littleEndian 1 x.toUInt8.toNat
  | .int16 x => littleEndian 2 x.toUInt16.toNat
  | .int32 x => littleEndian 4 x.toUInt32.toNat
  | .int64 x => littleEndian 8 x.toUInt64.toNat

/-- The conversion of an int8_t in a return statement. -/
def ofInt8 (element : Int8) : Width → IntValue
  | .int8 => .int8 element
  | .int16 => .int16 element.toInt16
  | .int32 => .int32 element.toInt32
  | .int64 => .int64 element.toInt64

theorem bytes_length (v : IntValue) : v.bytes.length = v.width.size := by
  cases v <;> exact littleEndian_length _ _

end IntValue

namespace Buffer

def appendInt (b : Buffer) (v : IntValue) : Option Buffer := b.append v.bytes

def appendInt8 (b : Buffer) (element : Int8) : Option Buffer := b.appendInt (.int8 element)
def appendInt16 (b : Buffer) (element : Int16) : Option Buffer := b.appendInt (.int16 element)
def appendInt32 (b : Buffer) (element : Int32) : Option Buffer := b.appendInt (.int32 element)
def appendInt64 (b : Buffer) (element : Int64) : Option Buffer := b.appendInt (.int64 element)

def prependInt (b : Buffer) (v : IntValue) : Option Buffer := b.prepend v.bytes

def prependInt8 (b : Buffer) (element : Int8) : Option Buffer := b.prependInt (.int8 element)
def prependInt16 (b : Buffer) (element : Int16) : Option Buffer := b.prependInt (.int16 element)
def prependInt32 (b : Buffer) (element : Int32) : Option Buffer := b.prependInt (.int32 element)
def prependInt64 (b : Buffer) (element : Int64) : Option Buffer := b.prependInt (.int64 element)

/-- sizeof(int8_t) in all four. -/
def retrieveInt (b : Buffer) : Option Buffer := b.retrieve 1

def retrieveInt8 (b : Buffer) : Option Buffer := b.retrieveInt
def retrieveInt16 (b : Buffer) : Option Buffer := b.retrieveInt
def retrieveInt32 (b : Buffer) : Option Buffer := b.retrieveInt
def retrieveInt64 (b : Buffer) : Option Buffer := b.retrieveInt

/-- What a variable of type int8_t holds after the bytes have been copied to its address.
The first one is its own; what a copy behind it does is not defined, so `overrun` says what
is left in the variable then, and `none` that the function does not get to its return. -/
def copyToInt8 (overrun : Int8 → Bytes → Option Int8) : Bytes → Option Int8
  | [] => some 0
  | [first] => some first.toInt8
  | first :: behind => overrun first.toInt8 behind

section Read

variable (overrun : Int8 → Bytes → Option Int8)

def peekInt (b : Buffer) (w : Width) : Option IntValue :=
  if w.size ≤ b.readableBytes then
    (copyToInt8 overrun (b.content.take w.size)).map fun element => .ofInt8 element w
  else none

def peekInt8 (b : Buffer) : Option IntValue := b.peekInt overrun .int8
def peekInt16 (b : Buffer) : Option IntValue := b.peekInt overrun .int16
def peekInt32 (b : Buffer) : Option IntValue := b.peekInt overrun .int32
def peekInt64 (b : Buffer) : Option IntValue := b.peekInt overrun .int64

def readInt (b : Buffer) (w : Width) : Option (IntValue × Buffer) :=
  (b.peekInt overrun w).bind fun ret => b.retrieveInt.map fun rest => (ret, rest)

def readInt8 (b : Buffer) : Option (IntValue × Buffer) := b.readInt overrun .int8
def readInt16 (b : Buffer) : Option (IntValue × Buffer) := b.readInt overrun .int16
def readInt32 (b : Buffer) : Option (IntValue × Buffer) := b.readInt overrun .int32
def readInt64 (b : Buffer) : Option (IntValue × Buffer) := b.readInt overrun .int64

def readInts (b : Buffer) : List Width → Option (List IntValue × Buffer)
  | [] => some ([], b)
  | w :: rest =>
      (b.readInt overrun w).bind fun r =>
        (readInts r.2 rest).map fun s => (r.1 :: s.1, s.2)

end Read

def appendInts (b : Buffer) : List IntValue → Option Buffer
  | [] => some b
  | v :: rest => (b.appendInt v).bind fun r => r.appendInts rest

/-- The values come back as they were appended, and use up the buffer. -/
def RoundTrip (overrun : Int8 → Bytes → Option Int8) (b : Buffer) (values : List IntValue) :
    Prop :=
  ∃ r rest, b.appendInts values = some r ∧
    r.readInts overrun (values.map IntValue.width) = some (values, rest) ∧
    r.readableBytes = rest.readableBytes + (values.map fun v => v.width.size).sum ∧
    rest.content = []

theorem appendInts_content (values : List IntValue) (b : Buffer) :
    ∃ r, b.appendInts values = some r ∧ r.content = b.content ++ values.flatMap IntValue.bytes := by
  induction values generalizing b with
  | nil => exact ⟨b, rfl, (List.append_nil _).symm⟩
  | cons v rest ih =>
      obtain ⟨r, appended, content⟩ := append_content b v.bytes
      obtain ⟨s, others, all⟩ := ih r
      refine ⟨s, ?_, ?_⟩
      · rw [appendInts, appendInt, appended, Option.bind_some, others]
      · rw [all, content, List.flatMap_cons, List.append_assoc]

theorem flatMap_bytes_length (values : List IntValue) :
    (values.flatMap IntValue.bytes).length = (values.map fun v => v.width.size).sum := by
  rw [List.length_flatMap]
  simp only [IntValue.bytes_length]

/-- The bytes of the values are as many as the values exactly when each has one. -/
theorem sizes_eq_length (values : List IntValue) :
    values.length ≤ (values.map fun v => v.width.size).sum ∧
      ((values.map fun v => v.width.size).sum = values.length ↔ ∀ v ∈ values, v.width = .int8) := by
  induction values with
  | nil => simp
  | cons v rest ih =>
      obtain ⟨least, exact_⟩ := ih
      have positive : 1 ≤ v.width.size := v.width.size_pos
      have one : v.width.size = 1 ↔ v.width = .int8 := v.width.size_eq_one
      rw [List.map_cons, List.sum_cons, List.length_cons, List.forall_mem_cons, ← exact_, ← one]
      omega

section Read

variable (overrun : Int8 → Bytes → Option Int8)

/-- Every readInt takes one byte. -/
theorem readInt_length (b r : Buffer) (w : Width) (v : IntValue)
    (done : b.readInt overrun w = some (v, r)) : r.readableBytes + 1 = b.readableBytes := by
  obtain ⟨ret, _, rest⟩ := Option.bind_eq_some_iff.mp done
  obtain ⟨s, retrieved, same⟩ := Option.map_eq_some_iff.mp rest
  cases same
  have within : 1 ≤ b.readableBytes := by
    by_contra short
    rw [retrieveInt, retrieve, dif_neg short] at retrieved
    cases retrieved
  obtain ⟨t, taken, content⟩ := retrieve_content b 1 within
  obtain rfl : r = t := Option.some.inj (retrieved.symm.trans taken)
  rw [← content_length, content, List.length_drop, content_length]
  omega

theorem readInts_length (widths : List Width) (b r : Buffer) (values : List IntValue)
    (done : b.readInts overrun widths = some (values, r)) :
    r.readableBytes + widths.length = b.readableBytes := by
  induction widths generalizing b values with
  | nil =>
      cases done
      rfl
  | cons w rest ih =>
      obtain ⟨⟨v, s⟩, first, later⟩ := Option.bind_eq_some_iff.mp done
      obtain ⟨⟨others, t⟩, read, same⟩ := Option.map_eq_some_iff.mp later
      cases same
      have one := readInt_length overrun b s w v first
      have more := ih s others read
      rw [List.length_cons]
      omega

/-- What is appended by appendInt8 is read by readInt8. -/
theorem readInt8_content (b : Buffer) (x : Int8) (tail : Bytes)
    (content : b.content = (IntValue.int8 x).bytes ++ tail) :
    ∃ r, b.readInt overrun .int8 = some (.int8 x, r) ∧ r.content = tail := by
  have byte : (IntValue.int8 x).bytes = [x.toUInt8] := by
    show [UInt8.ofNat x.toUInt8.toNat] = [x.toUInt8]
    rw [UInt8.ofNat_toNat]
  rw [byte, List.singleton_append] at content
  have within : 1 ≤ b.readableBytes := by
    rw [← content_length, content, List.length_cons]
    omega
  obtain ⟨r, retrieved, left⟩ := retrieve_content b 1 within
  refine ⟨r, ?_, ?_⟩
  · simp only [readInt, peekInt, Width.size, within, ↓reduceIte, content, List.take_succ_cons,
      List.take_zero, copyToInt8, Option.map_some, Option.bind_some, retrieveInt, retrieved]
    rfl
  · rw [left, content, List.drop_succ_cons, List.drop_zero]

theorem readInts_content (values : List IntValue) (narrow : ∀ v ∈ values, v.width = .int8)
    (b : Buffer) (content : b.content = values.flatMap IntValue.bytes) :
    ∃ rest, b.readInts overrun (values.map IntValue.width) = some (values, rest) ∧
      rest.content = [] := by
  induction values generalizing b with
  | nil => exact ⟨b, rfl, content⟩
  | cons v others ih =>
      rw [List.forall_mem_cons] at narrow
      rw [List.flatMap_cons] at content
      obtain ⟨x, rfl⟩ : ∃ x, v = .int8 x := by
        cases v with
        | int8 x => exact ⟨x, rfl⟩
        | int16 | int32 | int64 => cases narrow.1
      obtain ⟨r, first, left⟩ := readInt8_content overrun b x _ content
      obtain ⟨rest, later, empty⟩ := ih narrow.2 r left
      refine ⟨rest, ?_, empty⟩
      rw [List.map_cons, readInts, IntValue.width, first, Option.bind_some, later]
      rfl

/-- peekInt returns what readInt returns. -/
theorem readInt_peekInt (b : Buffer) (w : Width) :
    (b.readInt overrun w).map Prod.fst = b.peekInt overrun w := by
  cases peeked : b.peekInt overrun w with
  | none => rw [readInt, peeked, Option.bind_none, Option.map_none]
  | some v =>
      have within : 1 ≤ b.readableBytes := by
        by_contra short
        have positive := w.size_pos
        rw [peekInt, if_neg (by omega)] at peeked
        cases peeked
      obtain ⟨r, retrieved, _⟩ := retrieve_content b 1 within
      rw [readInt, peeked, Option.bind_some, retrieveInt, retrieved]
      rfl

theorem roundTrip_iff (b : Buffer) (empty : b.content = []) (values : List IntValue) :
    b.RoundTrip overrun values ↔ ∀ v ∈ values, v.width = .int8 := by
  obtain ⟨r, appended, content⟩ := appendInts_content values b
  rw [empty, List.nil_append] at content
  have size : r.readableBytes = (values.map fun v => v.width.size).sum := by
    rw [← content_length, content, flatMap_bytes_length]
  constructor
  · rintro ⟨s, rest, again, read, _, used⟩
    obtain rfl : r = s := Option.some.inj (appended.symm.trans again)
    have taken := readInts_length overrun _ r rest values read
    rw [(readableBytes_eq_zero rest).mpr used, List.length_map] at taken
    exact (sizes_eq_length values).2.mp (by omega)
  · intro narrow
    obtain ⟨rest, read, used⟩ := readInts_content overrun values narrow r content
    refine ⟨r, rest, appended, read, ?_, used⟩
    rw [size, (readableBytes_eq_zero rest).mpr used, Nat.zero_add]

/-- Whatever the copy behind the variable does: integers appended to an empty buffer are read
back by the functions of the same widths exactly when all of them have eight bits. A peek
returns what the read would return, for every width. -/
theorem int_round_trip_iff (b : Buffer) (empty : b.content = []) (values : List IntValue) :
    (b.RoundTrip overrun values ↔ ∀ v ∈ values, v.width = .int8) ∧
      ∀ (c : Buffer) (w : Width), (c.readInt overrun w).map Prod.fst = c.peekInt overrun w :=
  ⟨roundTrip_iff overrun b empty values, readInt_peekInt overrun⟩

end Read

/-- A negative value of eight bits. -/
theorem int_round_trip_negative :
    fresh.RoundTrip (fun element _ => some element) [.int8 (-2), .int8 7] :=
  (int_round_trip_iff (fun element _ => some element) fresh fresh_content _).1.mpr (by decide)

/-- Already a single integer of 16 bits is not used up, even where the byte that is copied
behind the variable does no harm. -/
theorem int_round_trip_fails :
    ¬ fresh.RoundTrip (fun element _ => some element) [.int16 300] := by
  intro round
  have narrow := (roundTrip_iff (fun element _ => some element) fresh fresh_content
    [.int16 300]).mp round
  exact absurd narrow (by decide)

end Buffer
end Tundra
