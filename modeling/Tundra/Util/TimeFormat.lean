import Tundra.Library.Calendar
import Tundra.Library.Reader
import Tundra.Util.TimeStamp

set_option autoImplicit false

/- The text of a TimeStamp, read back. -/
namespace Tundra.TimeStamp

open Library

/-- The seconds since the epoch of a time in UTC. -/
def timegm (tm : Tm) : Nat :=
  (Calendar.days ⟨tm.year, tm.month, tm.day⟩ - 719468) * 86400 + tm.hour * 3600 +
    tm.minute * 60 + tm.second

theorem gmtime_date (seconds : Nat) :
    (⟨(gmtime seconds).year, (gmtime seconds).month, (gmtime seconds).day⟩ : Date) =
      Calendar.civil (seconds / 86400 + 719468) := rfl

theorem timegm_gmtime (seconds : Nat) : timegm (gmtime seconds) = seconds := by
  have hour : (gmtime seconds).hour = seconds % 86400 / 3600 := rfl
  have minute : (gmtime seconds).minute = seconds % 3600 / 60 := rfl
  have second : (gmtime seconds).second = seconds % 60 := rfl
  rw [timegm, gmtime_date, Calendar.days_civil, hour, minute, second]
  omega

/-- A number of exactly so many digits. -/
def readDigits (width : Nat) : Reader UInt8 Nat := fun text =>
  if width ≤ text.length ∧ (text.take width).all (fun c => 48 ≤ c && c ≤ 57) = true then
    some (Nat.ofDigitChars 10 ((text.take width).map fun c => Char.ofNat c.toNat) 0,
      text.drop width)
  else none

theorem padded_length (width : Nat) (fill : UInt8) (n : Nat) (positive : 0 < width)
    (fits : n < 10 ^ width) : (padded width fill n).length = width := by
  have short := decimal_length_le n width positive fits
  rw [padded, List.length_append, List.length_replicate]
  omega

theorem padded_digits (width n : Nat) :
    (padded width 48 n).all (fun c => 48 ≤ c && c ≤ 57) = true := by
  rw [List.all_eq_true]
  intro c member
  rcases List.mem_append.mp member with filled | written
  · rw [List.eq_of_mem_replicate filled]
    decide
  · obtain ⟨lower, upper⟩ := decimal_digit n c written
    simp [lower, upper]

/-- Zeros in front do not count. -/
theorem padded_value (width n : Nat) :
    Nat.ofDigitChars 10 ((padded width 48 n).map fun c => Char.ofNat c.toNat) 0 = n := by
  have zeros (k : Nat) (cs : List Char) :
      Nat.ofDigitChars 10 (List.replicate k '0' ++ cs) 0 = Nat.ofDigitChars 10 cs 0 := by
    induction k with
    | zero => rfl
    | succ k ih => exact ih
  have zero : Char.ofNat (48 : UInt8).toNat = '0' := rfl
  rw [padded, List.map_append, List.map_replicate, zero, zeros, decimal_chars,
    Nat.ofDigitChars_ten_toDigits]

theorem readDigits_padded (width n : Nat) (rest : Bytes) (positive : 0 < width)
    (fits : n < 10 ^ width) : readDigits width (padded width 48 n ++ rest) = some (n, rest) := by
  have length := padded_length width 48 n positive fits
  have front : (padded width 48 n ++ rest).take width = padded width 48 n :=
    List.take_left' length
  have back : (padded width 48 n ++ rest).drop width = rest := List.drop_left' length
  have enough : width ≤ (padded width 48 n ++ rest).length := by
    rw [List.length_append]
    omega
  rw [readDigits, front, back, if_pos ⟨enough, padded_digits width n⟩, padded_value]

/-- A number that fills its width is not filled up. -/
theorem padded_of_long (width : Nat) (fill other : UInt8) (n : Nat)
    (long : 10 ^ width ≤ n) : padded (width + 1) fill n = padded (width + 1) other n := by
  have digits : width + 1 ≤ (decimal n).length := by
    by_contra short
    cases width with
    | zero => exact decimal_ne_nil n (List.length_eq_zero_iff.mp (by omega))
    | succ k =>
        rw [decimal, List.length_map] at short
        have few : (Nat.toDigits 10 n).length ≤ k + 1 := by omega
        rw [Nat.length_toDigits_le_iff (by omega) (by omega)] at few
        omega
  rw [padded, padded, Nat.sub_eq_zero_of_le digits]
  rfl

/-- The year, the month and the day as eight digits, and then the time of day. -/
def readTimeStamp : Reader UInt8 TimeStamp := fun text =>
  (readDigits 4 text).bind fun (year, text) =>
  (readDigits 2 text).bind fun (month, text) =>
  (readDigits 2 text).bind fun (day, text) =>
  (Reader.symbol 32 text).bind fun (_, text) =>
  (readDigits 2 text).bind fun (hour, text) =>
  (Reader.symbol 58 text).bind fun (_, text) =>
  (readDigits 2 text).bind fun (minute, text) =>
  (Reader.symbol 58 text).bind fun (_, text) =>
  (readDigits 2 text).bind fun (second, text) =>
  (Reader.symbol 46 text).bind fun (_, text) =>
  (readDigits 6 text).map fun (microseconds, text) =>
    (((timegm ⟨year, month, day, hour, minute, second⟩ * kMicroSecondsPerSeconds +
      microseconds : Nat) : Int), text)

/-- From the epoch to the end of the year 9999. -/
def Representable (t : TimeStamp) : Prop :=
  (0 : Int) ≤ t ∧ t < (253402300800000000 : Int)

theorem Representable.seconds {t : TimeStamp} (known : Representable t) :
    t.toNat / kMicroSecondsPerSeconds < 253402300800 := by
  have bound (n : Int) (late : n < 253402300800000000) : n.toNat / 1000000 < 253402300800 := by
    omega
  exact bound t known.2

/-- The fields have as many digits as the format gives them. -/
theorem gmtime_range (seconds : Nat) (early : seconds < 253402300800) :
    10 ^ 3 ≤ (gmtime seconds).year ∧ (gmtime seconds).year < 10 ^ 4 ∧
      (gmtime seconds).month < 10 ^ 2 ∧ (gmtime seconds).day < 10 ^ 2 ∧
      (gmtime seconds).hour < 10 ^ 2 ∧ (gmtime seconds).minute < 10 ^ 2 ∧
      (gmtime seconds).second < 10 ^ 2 := by
  have date := gmtime_date seconds
  have range := Calendar.civil_range (seconds / 86400 + 719468)
  have above := Calendar.le_civil_year (seconds / 86400 + 719468)
  have below := Calendar.civil_year_lt (seconds / 86400 + 719468) (by omega)
  rw [← date] at range above below
  have hour : (gmtime seconds).hour = seconds % 86400 / 3600 := rfl
  have minute : (gmtime seconds).minute = seconds % 3600 / 60 := rfl
  have second : (gmtime seconds).second = seconds % 60 := rfl
  dsimp only at range above below
  omega

/-- The text without the limit of its array. -/
theorem toFormatString_eq (t : TimeStamp) (known : Representable t) :
    t.toFormatString =
      let tm := gmtime (t.toNat / kMicroSecondsPerSeconds)
      padded 4 48 tm.year ++ (padded 2 48 tm.month ++ (padded 2 48 tm.day ++ 32 ::
        (padded 2 48 tm.hour ++ 58 :: (padded 2 48 tm.minute ++ 58 ::
          (padded 2 48 tm.second ++ 46 ::
            padded 6 48 (t.toNat % kMicroSecondsPerSeconds)))))) := by
  have micro : t.toNat % kMicroSecondsPerSeconds < 10 ^ 6 := Nat.mod_lt _ (by decide)
  obtain ⟨long, year, month, day, hour, minute, seconds⟩ := gmtime_range _ known.seconds
  have space : ascii " " = [32] := rfl
  have colon : ascii ":" = [58] := rfl
  have point : ascii "." = [46] := rfl
  unfold toFormatString
  dsimp only
  rw [padded_of_long 3 32 48 _ long, snprintf_of_fits, space, colon, point]
  · simp only [List.append_assoc, List.cons_append, List.nil_append]
  · simp only [List.length_append, space, colon, point, List.length_singleton,
      padded_length 4 48 _ (by decide) year, padded_length 2 48 _ (by decide) month,
      padded_length 2 48 _ (by decide) day, padded_length 2 48 _ (by decide) hour,
      padded_length 2 48 _ (by decide) minute, padded_length 2 48 _ (by decide) seconds,
      padded_length 6 48 _ (by decide) micro]
    decide

/-- Nothing but digits, a space, colons and a point. -/
theorem toFormatString_visible (t : TimeStamp) (known : Representable t) :
    ∀ c ∈ t.toFormatString, 32 ≤ c := by
  have digits (width n : Nat) (c : UInt8) (member : c ∈ padded width 48 n) : 32 ≤ c := by
    have digit := List.all_eq_true.mp (padded_digits width n) c member
    simp only [Bool.and_eq_true, decide_eq_true_eq] at digit
    exact UInt8.le_trans (by decide) digit.1
  rw [toFormatString_eq t known]
  intro c member
  simp only [List.mem_append, List.mem_cons] at member
  rcases member with m | m | m | rfl | m | rfl | m | rfl | m | rfl | m
  all_goals first | exact digits _ _ c m | decide

/-- A TimeStamp is read back from its text, whatever follows. -/
theorem readTimeStamp_append (t : TimeStamp) (known : Representable t) (rest : Bytes) :
    readTimeStamp (t.toFormatString ++ rest) = some (t, rest) := by
  have micro : t.toNat % kMicroSecondsPerSeconds < 10 ^ 6 := Nat.mod_lt _ (by decide)
  obtain ⟨_, year, month, day, hour, minute, seconds⟩ := gmtime_range _ known.seconds
  have back := timegm_gmtime (t.toNat / kMicroSecondsPerSeconds)
  rw [toFormatString_eq t known]
  generalize gmtime (t.toNat / kMicroSecondsPerSeconds) = tm at *
  have whole := Nat.div_add_mod' t.toNat kMicroSecondsPerSeconds
  generalize t.toNat % kMicroSecondsPerSeconds = fraction at *
  dsimp only
  rw [readTimeStamp, List.append_assoc, readDigits_padded 4 _ _ (by decide) year,
    Option.bind_some]
  dsimp only
  rw [List.append_assoc, readDigits_padded 2 _ _ (by decide) month, Option.bind_some]
  dsimp only
  rw [List.append_assoc, readDigits_padded 2 _ _ (by decide) day, Option.bind_some]
  dsimp only
  rw [List.cons_append, Reader.symbol_cons, Option.bind_some]
  dsimp only
  rw [List.append_assoc, readDigits_padded 2 _ _ (by decide) hour, Option.bind_some]
  dsimp only
  rw [List.cons_append, Reader.symbol_cons, Option.bind_some]
  dsimp only
  rw [List.append_assoc, readDigits_padded 2 _ _ (by decide) minute, Option.bind_some]
  dsimp only
  rw [List.cons_append, Reader.symbol_cons, Option.bind_some]
  dsimp only
  rw [List.append_assoc, readDigits_padded 2 _ _ (by decide) seconds, Option.bind_some]
  dsimp only
  rw [List.cons_append, Reader.symbol_cons, Option.bind_some]
  dsimp only
  rw [readDigits_padded 6 _ _ (by decide) micro, Option.map_some]
  dsimp only
  rw [back, whole, Int.toNat_of_nonneg known.1]

end Tundra.TimeStamp
