import Mathlib.Algebra.Group.Nat.Defs
import Mathlib.Data.List.Lex
import Tundra.Util.Buffer

set_option autoImplicit false

/- Text as bytes, with the parts of the C library the source uses on it. -/
namespace Tundra

def ascii (s : String) : Bytes := s.toList.map fun c => UInt8.ofNat c.toNat

/-- A number in decimal, as the formats %d, %u and %zd print it. -/
def decimal (n : Nat) : Bytes := (Nat.toDigits 10 n).map fun c => UInt8.ofNat c.toNat

/-- An int as %d prints it. -/
def formatInt (n : Int) : Bytes :=
  if n < 0 then ascii "-" ++ decimal n.natAbs else decimal n.natAbs

/-- What snprintf leaves in an array of `size` bytes, without the closing NUL. -/
def snprintf (size : Nat) (text : Bytes) : Bytes := text.take (size - 1)

theorem snprintf_of_fits (size : Nat) (text : Bytes) (fits : text.length < size) :
    snprintf size text = text :=
  List.take_of_length_le (by omega)

theorem digit_range (n : Nat) (c : Char) (written : c ∈ Nat.toDigits 10 n) :
    48 ≤ c.toNat ∧ c.toNat ≤ 57 :=
  Char.isDigit_iff_toNat.mp (Nat.isDigit_of_mem_toDigits (by omega) (by omega) written)

/-- The characters of a number, read back from its bytes. -/
theorem decimal_chars (n : Nat) :
    (decimal n).map (fun b => Char.ofNat b.toNat) = Nat.toDigits 10 n := by
  rw [decimal, List.map_map]
  conv => rhs; rw [← List.map_id (Nat.toDigits 10 n)]
  apply List.map_congr_left
  intro c member
  have range := digit_range n c member
  have small : (UInt8.ofNat c.toNat).toNat = c.toNat := by
    rw [UInt8.toNat_ofNat']
    omega
  simp only [Function.comp_apply, small, Char.ofNat_toNat, id_eq]

theorem decimal_injective (m n : Nat) (same : decimal m = decimal n) : m = n := by
  have digits : Nat.toDigits 10 m = Nat.toDigits 10 n := by
    rw [← decimal_chars, same, decimal_chars]
  have back := congrArg (fun cs => Nat.ofDigitChars 10 cs 0) digits
  simpa only [Nat.ofDigitChars_ten_toDigits] using back

theorem decimal_length_le (n k : Nat) (positive : 0 < k) (below : n < 10 ^ k) :
    (decimal n).length ≤ k := by
  rw [decimal, List.length_map, Nat.length_toDigits_le_iff (by omega) positive]
  exact below

theorem decimal_digit (n : Nat) (c : UInt8) (member : c ∈ decimal n) : 48 ≤ c ∧ c ≤ 57 := by
  obtain ⟨digit, written, rfl⟩ := List.mem_map.mp member
  have range := digit_range n digit written
  rw [UInt8.le_iff_toNat_le, UInt8.le_iff_toNat_le, UInt8.toNat_ofNat']
  change 48 ≤ _ ∧ _ ≤ 57
  omega

theorem decimal_ne_nil (n : Nat) : decimal n ≠ [] := by
  intro none
  have digits := decimal_chars n
  rw [none, List.map_nil] at digits
  exact Nat.toDigits_ne_nil digits.symm

/-- std::isspace in the C locale: the space and the five control characters from
tab to carriage return. -/
def isspace (c : UInt8) : Bool := c == 32 || (9 ≤ c && c ≤ 13)

/-- Bytes are ordered as unsigned numbers, and strings by their first difference,
as std::string compares them. -/
instance byteOrder : LinearOrder UInt8 where
  le_refl := UInt8.le_refl
  le_trans _ _ _ := UInt8.le_trans
  le_antisymm _ _ := UInt8.le_antisymm
  le_total := UInt8.le_total
  lt_iff_le_not_ge a b := by
    simp only [UInt8.lt_iff_toNat_lt, UInt8.le_iff_toNat_le]
    omega
  toDecidableLE := inferInstance
  toDecidableEq := inferInstance
  toDecidableLT := inferInstance

end Tundra
