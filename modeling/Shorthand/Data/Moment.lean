/-
Days of the calendar and times of day. A time with an offset from universal time is one
point in time; two of them that say the same are equal.
-/
import Shorthand.Text.Basic

namespace Shorthand.Data

structure Date where
  year : Nat
  month : Nat
  day : Nat
  deriving DecidableEq, Repr

namespace Date

def isLeapYear (year : Nat) : Bool := year % 4 == 0 && (year % 100 != 0 || year % 400 == 0)

def daysIn (year month : Nat) : Nat :=
  if month = 2 then if isLeapYear year then 29 else 28
  else if [4, 6, 9, 11].contains month then 30
  else 31

/-- Whether a date is a day of the calendar, which begins with the year one. -/
def isReal (d : Date) : Bool :=
  1 ≤ d.year && 1 ≤ d.month && d.month ≤ 12 && 1 ≤ d.day && d.day ≤ daysIn d.year d.month

/-- The number of days from the beginning of the calendar to the end of a day. -/
def number (d : Date) : Nat :=
  let years := d.year - 1
  let months := (List.range (d.month - 1)).map fun m => daysIn d.year (m + 1)
  years * 365 + years / 4 - years / 100 + years / 400 + months.foldl (· + ·) 0 + d.day

def toText (d : Date) : Text :=
  Text.padded 4 d.year ++ '-' :: Text.padded 2 d.month ++ '-' :: Text.padded 2 d.day

end Date

/-- A day and a time of day, perhaps with an offset from universal time in minutes. -/
structure Moment where
  date : Date
  hour : Nat
  minute : Nat
  second : Nat
  micro : Nat
  offset : Option Int
  deriving DecidableEq, Repr

namespace Moment

/-- Whether a moment is one: a day of the calendar, a time of day, and an offset of less
than a day. -/
def isReal (m : Moment) : Bool :=
  m.date.isReal && m.hour < 24 && m.minute < 60 && m.second < 60 &&
    (m.offset.all fun minutes => minutes.natAbs < 24 * 60)

/-- The point in time, in microseconds; none without an offset. -/
def instant? (m : Moment) : Option Int :=
  m.offset.map fun offset =>
    let minutes : Int := m.date.number * 1440 + m.hour * 60 + m.minute - offset
    (minutes * 60 + m.second) * 1000000 + m.micro

def offsetText (minutes : Int) : Text :=
  (if minutes < 0 then '-' else '+') ::
    Text.padded 2 (minutes.natAbs / 60) ++ ':' :: Text.padded 2 (minutes.natAbs % 60)

/-- The text of a moment, with microseconds where there are any. -/
def toText (m : Moment) : Text :=
  m.date.toText ++ ' ' :: Text.padded 2 m.hour ++ ':' :: Text.padded 2 m.minute ++
    ':' :: Text.padded 2 m.second ++
    (if m.micro = 0 then [] else '.' :: Text.padded 6 m.micro) ++
    (m.offset.map offsetText).getD []

end Moment

end Shorthand.Data
