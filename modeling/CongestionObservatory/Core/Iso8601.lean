import CongestionObservatory.Core.Checked
import CongestionObservatory.Core.Number
import CongestionObservatory.Core.Time

/-!
# `CongestionObservatory.Core.Iso8601`: timestamps as text

`to_iso8601` and `from_iso8601` (`core/time.cpp`) write and read a timestamp as a UTC date and
time. The calendar is the proleptic Gregorian one, with years that start in March and eras of 400
years. The reader checks each field and combines them with checked arithmetic.
-/

set_option autoImplicit false

namespace CongestionObservatory

/-- `civil_from_days`: year, month and day of a day count since the epoch. -/
def civilFromDays (days : Int) : Int × Nat × Nat :=
  let days := days + 719468
  let era := (if days ≥ 0 then days else days - 146096).tdiv 146097
  let doe := (days - era * 146097).toNat
  let yoe := (doe - doe / 1460 + doe / 36524 - doe / 146096) / 365
  let y : Int := yoe + era * 400
  let doy := doe - (365 * yoe + yoe / 4 - yoe / 100)
  let mp := (5 * doy + 2) / 153
  let day := doy - (153 * mp + 2) / 5 + 1
  let month := if mp < 10 then mp + 3 else mp - 9
  (y + if month ≤ 2 then 1 else 0, month, day)

/-- `days_from_civil`. -/
def daysFromCivil (year : Int) (month day : Nat) : Int :=
  let year := year - if month ≤ 2 then 1 else 0
  let era := (if year ≥ 0 then year else year - 399).tdiv 400
  let yoe := (year - era * 400).toNat
  let doy := (153 * (if month > 2 then month - 3 else month + 9) + 2) / 5 + day - 1
  let doe := yoe * 365 + yoe / 4 - yoe / 100 + doy
  era * 146097 + doe - 719468

/-- `%0*d` of a number that is not negative. -/
def zeroPadded (width n : Nat) : Text :=
  List.replicate (width - (decimal n).length) 0x30 ++ decimal n

/-- `%04lld` of the year. -/
def yearText (year : Int) : Text :=
  if year < 0 then 0x2d :: zeroPadded 3 year.natAbs else zeroPadded 4 year.natAbs

/-- `is_leap`. -/
def isLeap (year : Int) : Bool := (year.tmod 4 = 0 ∧ year.tmod 100 ≠ 0) ∨ year.tmod 400 = 0

/-- `days_in_month`. -/
def daysInMonth (year : Int) (month : Nat) : Nat :=
  if month = 2 ∧ isLeap year then 29
  else [31, 28, 31, 30, 31, 30, 31, 31, 30, 31, 30, 31].getD (month - 1) 0

/-- `read_int`: the number in a field of the text. -/
def readInt (text : Text) (offset length : Nat) : Result Nat :=
  if offset + length > text.length then
    .error (makeError .invalidArgument "timestamp field truncated")
  else
    let digits := (text.drop offset).take length
    if digits.all isDigit then .ok (digitsValue digits)
    else .error (makeError .invalidArgument "timestamp contains a non digit")

/-- `kNanosPerSecond`. -/
def kNanosPerSecond : Int := 1000000000

/-- A checked operation that reports its overflow. -/
def orOverflow (result : Option Int) (message : String) : Result Int :=
  match result with
  | none => .error (makeError .arithmeticOverflow message)
  | some value => .ok value

/-- The fraction of a second, in nanoseconds: the first nine digits count. -/
def fractionOf (text : Text) : Result Int := do
  if text.length > 20 then
    failIf (text.getD 19 0 ≠ 0x2e)
      (makeError .invalidArgument "timestamp fraction separator missing")
    let digits := (text.drop 20).dropLast
    failIf (digits.all isDigit = false)
      (makeError .invalidArgument "timestamp fraction contains a non digit")
    let counted := digits.take 9
    pure ((digitsValue counted * 10 ^ (9 - counted.length) : Nat) : Int)
  else pure 0

/-- The fields of a date and a time of day. -/
structure CivilTime where
  year : Nat
  month : Nat
  day : Nat
  hour : Nat
  minute : Nat
  second : Nat
  deriving DecidableEq, Repr

namespace CivilTime

/-- The calls of `read_int` in `from_iso8601`. The first error is reported. -/
def read (text : Text) : Result CivilTime := do
  let year ← readInt text 0 4
  let month ← readInt text 5 2
  let day ← readInt text 8 2
  let hour ← readInt text 11 2
  let minute ← readInt text 14 2
  let second ← readInt text 17 2
  pure ⟨year, month, day, hour, minute, second⟩

/-- The range checks of `from_iso8601`. -/
def check (c : CivilTime) : Status := do
  failIf (c.month < 1 ∨ c.month > 12) (makeError .outOfRange "timestamp month out of range")
  failIf (c.day < 1 ∨ c.day > daysInMonth c.year c.month)
    (makeError .outOfRange "timestamp day out of range")
  failIf (c.hour > 23 ∨ c.minute > 59 ∨ c.second > 59)
    (makeError .outOfRange "timestamp time of day out of range")

/-- The checked arithmetic at the end of `from_iso8601`. -/
def combine (c : CivilTime) (fraction : Int) : Result Timestamp := do
  let days := daysFromCivil c.year c.month c.day
  let seconds ← orOverflow (checkedMulI64 days 86400) "timestamp day count overflow"
  let daySeconds ← orOverflow (checkedMulI64 c.hour 3600) "timestamp hour overflow"
  let add ← orOverflow (checkedAddI64 daySeconds (c.minute * 60 + c.second))
    "timestamp minute overflow"
  let totalSeconds ← orOverflow (checkedAddI64 seconds add) "timestamp seconds overflow"
  let nanos ← orOverflow (checkedMulI64 totalSeconds kNanosPerSecond)
    "timestamp nanoseconds overflow"
  let total ← orOverflow (checkedAddI64 nanos fraction) "timestamp fraction overflow"
  pure ⟨Int64.ofInt total⟩

end CivilTime

namespace Timestamp

/-- `Timestamp::to_iso8601`. -/
def toIso8601 (t : Timestamp) : Text :=
  let nanos := t.nanos.toInt
  let quotient := nanos.tdiv kNanosPerSecond
  let rest := nanos.tmod kNanosPerSecond
  let remainder := if rest < 0 then rest + kNanosPerSecond else rest
  let seconds := if rest < 0 then quotient - 1 else quotient
  let days := if seconds ≥ 0 then seconds.tdiv 86400 else (seconds - 86399).tdiv 86400
  let secondOfDay := seconds - days * 86400
  let (year, month, day) := civilFromDays days
  let hour := (secondOfDay.tdiv 3600).toNat
  let minute := ((secondOfDay.tmod 3600).tdiv 60).toNat
  let second := (secondOfDay.tmod 60).toNat
  yearText year ++ 0x2d :: zeroPadded 2 month ++ 0x2d :: zeroPadded 2 day ++ 0x54 ::
    zeroPadded 2 hour ++ 0x3a :: zeroPadded 2 minute ++ 0x3a :: zeroPadded 2 second
    ++ (if remainder = 0 then [] else 0x2e :: zeroPadded 9 remainder.toNat) ++ [0x5a]

/-- `Timestamp::from_iso8601`. -/
def fromIso8601 (text : Text) : Result Timestamp := do
  failIf (text.length < 20) (makeError .invalidArgument "timestamp is too short")
  failIf (text.getD 4 0 ≠ 0x2d ∨ text.getD 7 0 ≠ 0x2d ∨ text.getD 10 0 ≠ 0x54 ∨
      text.getD 13 0 ≠ 0x3a ∨ text.getD 16 0 ≠ 0x3a)
    (makeError .invalidArgument "timestamp layout is not ISO-8601 UTC")
  failIf (text.getLastD 0 ≠ 0x5a)
    (makeError .unsupported
      "only UTC timestamps are accepted; offsets need an explicit clock domain")
  let fields ← CivilTime.read text
  fields.check
  let fraction ← fractionOf text
  fields.combine fraction

end Timestamp

end CongestionObservatory
