import Mathlib.Data.List.Basic
import Tundra.Util.Text

set_option autoImplicit false

/- util/TimeStamp and its rendering in UTC. -/
namespace Tundra

/-- microSecondsSinceUnixEpoch_. -/
abbrev TimeStamp := Int

namespace TimeStamp

def kMicroSecondsPerSeconds : Nat := 1000 * 1000

/-- The fields of struct tm that the format uses. -/
structure Tm where
  year : Nat
  month : Nat
  day : Nat
  hour : Nat
  minute : Nat
  second : Nat
deriving DecidableEq, Repr

/-- gmtime_r for the seconds since the epoch, in the Gregorian calendar. Years are
counted from March on, so that the leap day is the last one of its year. -/
def gmtime (seconds : Nat) : Tm :=
  let z := seconds / 86400 + 719468
  let era := z / 146097
  let doe := z % 146097
  let yoe := (doe - doe / 1460 + doe / 36524 - doe / 146096) / 365
  let doy := doe - (365 * yoe + yoe / 4 - yoe / 100)
  let mp := (5 * doy + 2) / 153
  let month := if mp < 10 then mp + 3 else mp - 9
  { year := yoe + era * 400 + if month ≤ 2 then 1 else 0
    month := month
    day := doy - (153 * mp + 2) / 5 + 1
    hour := seconds % 86400 / 3600
    minute := seconds % 3600 / 60
    second := seconds % 60 }

/-- A number filled up on the left, as %4d and %02d do. -/
def padded (width : Nat) (fill : UInt8) (n : Nat) : Bytes :=
  List.replicate (width - (decimal n).length) fill ++ decimal n

/-- toFormatString(true). Readings of the clock are not negative. -/
def toFormatString (t : TimeStamp) : Bytes :=
  let tm := gmtime (t.toNat / kMicroSecondsPerSeconds)
  snprintf 64 (padded 4 32 tm.year ++ padded 2 48 tm.month ++ padded 2 48 tm.day ++ ascii " " ++
    padded 2 48 tm.hour ++ ascii ":" ++ padded 2 48 tm.minute ++ ascii ":" ++
    padded 2 48 tm.second ++ ascii "." ++ padded 6 48 (t.toNat % kMicroSecondsPerSeconds))

example : toFormatString 1677760496000123 = ascii "20230302 12:34:56.000123" := by decide +kernel

end TimeStamp
end Tundra
