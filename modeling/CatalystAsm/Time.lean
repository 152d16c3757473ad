import CatalystAsm.Bytes

/-!
# Points in time

A point in time is a number of nanoseconds since the start of 1970, in universal time.
-/

namespace CatalystAsm

/-- A point in time. -/
structure Instant where
  ns : Int := 0
  deriving DecidableEq, Repr, Inhabited

namespace Instant

/-- The nanoseconds of a second. -/
def second : Int := 1000000000

/-- The seconds of a day. -/
def day : Int := 86400

/-- The nanoseconds since the last full second. -/
def fraction (t : Instant) : Nat := (t.ns.fmod second).toNat

/-- The seconds since the last midnight. -/
def secondOfDay (t : Instant) : Nat := ((t.ns.fdiv second).fmod day).toNat

/-- The days since the start of 1970. -/
def days (t : Instant) : Int := (t.ns.fdiv second).fdiv day

/-- Year, month and day of month of a number of days since the start of 1970. Years are counted from
March, so that the day that is sometimes missing is the last one of a year. -/
def civil (days : Int) : Int × Nat × Nat :=
  let z := days + 719468
  let era := z.fdiv 146097
  let dayOfEra := (z - era * 146097).toNat
  let yearOfEra := (dayOfEra - dayOfEra / 1460 + dayOfEra / 36524 - dayOfEra / 146096) / 365
  let dayOfYear := dayOfEra - (365 * yearOfEra + yearOfEra / 4 - yearOfEra / 100)
  let m := (5 * dayOfYear + 2) / 153
  let dayOfMonth := dayOfYear - (153 * m + 2) / 5 + 1
  let month := if m < 10 then m + 3 else m - 9
  (era * 400 + yearOfEra + if month ≤ 2 then 1 else 0, month, dayOfMonth)

/-- A number with leading zeros up to `width` digits. -/
def digits (width n : Nat) : Bytes := Bytes.padLeft width 0x30 (.ofNat n)

/-- Hours, minutes and seconds of the day. -/
def timeOfDay (t : Instant) : Bytes :=
  let s := t.secondOfDay
  .concat [digits 2 (s / 3600), .ofString ":", digits 2 (s / 60 % 60), .ofString ":",
    digits 2 (s % 60)]

/-- The time of the day to the microsecond. -/
def clock (t : Instant) : Bytes :=
  .concat [t.timeOfDay, .ofString ".", digits 6 (t.fraction / 1000)]

/-- Date and time to the nanosecond, the fraction of a second without zeros at its end. -/
def stamp (t : Instant) : Bytes :=
  let (year, month, dayOfMonth) := civil t.days
  let fraction := ((digits 9 t.fraction).reverse.dropWhile (· == 0x30)).reverse
  .concat [digits 4 year.toNat, .ofString "-", digits 2 month, .ofString "-", digits 2 dayOfMonth,
    .ofString "T", t.timeOfDay, if fraction.isEmpty then [] else Bytes.char '.' :: fraction,
    .ofString "Z"]

end Instant

end CatalystAsm
