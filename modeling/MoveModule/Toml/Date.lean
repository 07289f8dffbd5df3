import MoveModule.Toml.Scan

/-! Dates and times. A date is a day of the calendar, a time is a point of a day, and
the two together may say how far the clock is from universal time. -/
namespace MoveModule.Toml

/-- A day of the calendar. -/
structure Date where
  year : Nat
  month : Nat
  day : Nat
deriving DecidableEq, Repr

/-- A point of a day. -/
structure Time where
  hour : Nat
  minute : Nat
  second : Nat
  /-- How many billionths of a second have passed since. -/
  nanosecond : Nat
deriving DecidableEq, Repr

/-- How a clock differs from universal time. -/
inductive Zone
  | universal
  | ahead (minutes : Int)
deriving DecidableEq, Repr

inductive Moment
  | date (date : Date)
  | time (time : Time)
  | dateTime (date : Date) (time : Time) (zone : Option Zone)
deriving DecidableEq, Repr

namespace Date

/-- Every fourth year has a day more, but of the full centuries only every fourth. -/
def isLeapYear (year : Nat) : Bool :=
  year % 4 == 0 && (year % 100 != 0 || year % 400 == 0)

def daysIn (year month : Nat) : Nat :=
  if month == 2 then if isLeapYear year then 29 else 28
  else if [4, 6, 9, 11].contains month then 30
  else 31

/-- Whether the calendar has the day. -/
def isValid (date : Date) : Bool :=
  1 ≤ date.month && date.month ≤ 12 && 1 ≤ date.day && date.day ≤ daysIn date.year date.month

def read : Scan Date := do
  let year ← Scan.number 4
  Scan.expect '-'
  let month ← Scan.number 2
  Scan.expect '-'
  let date : Date := ⟨year, month, ← Scan.number 2⟩
  guard date.isValid
  return date

def display (date : Date) : String :=
  Text.padded 4 date.year ++ "-" ++ Text.padded 2 date.month ++ "-" ++ Text.padded 2 date.day

end Date

namespace Time

/-- Whether a clock can show the time. A minute may have a second more than usual. -/
def isValid (time : Time) : Bool :=
  time.hour ≤ 23 && time.minute ≤ 59 && time.second ≤ 60

/-- The digits after the point of a second. Those past the ninth do not count. -/
def readFraction : Scan Nat := do
  Scan.expect '.'
  return Text.ofDigits 10 (((← Scan.digits).take 9).rightpad 9 0)

def read : Scan Time := do
  let hour ← Scan.number 2
  Scan.expect ':'
  let minute ← Scan.number 2
  Scan.expect ':'
  let second ← Scan.number 2
  let time : Time := ⟨hour, minute, second, (← optional readFraction).getD 0⟩
  guard time.isValid
  return time

/-- The digits after the point of a second with the point, down to the last that is not zero. -/
def displayFraction (nanosecond : Nat) : String :=
  if nanosecond == 0 then ""
  else
    let digits := (Text.padded 9 nanosecond).toList
    "." ++ String.ofList (digits.reverse.dropWhile (· == '0')).reverse

def display (time : Time) : String :=
  Text.padded 2 time.hour ++ ":" ++ Text.padded 2 time.minute ++ ":" ++
    Text.padded 2 time.second ++ displayFraction time.nanosecond

end Time

namespace Zone

def read : Scan Zone := do
  let mark ← Scan.satisfying ['Z', 'z', '+', '-'].contains
  if mark == 'Z' || mark == 'z' then return .universal
  let hour ← Scan.number 2
  Scan.expect ':'
  let minute ← Scan.number 2
  guard (hour ≤ 23 && minute ≤ 59)
  let minutes : Int := 60 * hour + minute
  return .ahead (if mark == '-' then -minutes else minutes)

def display : Zone → String
  | universal => "Z"
  | ahead minutes =>
      (if minutes < 0 then "-" else "+") ++ Text.padded 2 (minutes.natAbs / 60) ++ ":" ++
        Text.padded 2 (minutes.natAbs % 60)

end Zone

namespace Moment

/-- What stands between a date and a time. -/
def isDelimiter (c : Char) : Bool :=
  c == 'T' || c == 't' || c == ' '

/-- A time of a day that is known, and its zone. -/
def readTime : Scan (Time × Option Zone) := do
  let _ ← Scan.satisfying isDelimiter
  let time ← Time.read
  return (time, ← optional Zone.read)

/-- A date with a time or without, or a time alone. -/
def read : Scan Moment :=
  (do
    let day ← Date.read
    return match ← optional readTime with
      | some (clock, zone) => dateTime day clock zone
      | none => date day) <|>
    (time <$> Time.read)

def display : Moment → String
  | date day => day.display
  | time clock => clock.display
  | dateTime day clock zone =>
      day.display ++ "T" ++ clock.display ++ (zone.map Zone.display).getD ""

end Moment

end MoveModule.Toml
