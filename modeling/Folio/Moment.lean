import Folio.Date
import Folio.Text.Quoted
import Folio.Text.Cut

/-!
# Moments

A moment is a second of a day with its fraction. Where it is known how far the clock is ahead of
universal time, that is written behind it, and moments with such clocks are one if they are at the
same time.
-/

namespace Folio

open Text

/-- How far a clock is ahead of universal time. -/
structure Zone where
  minutes : Int
  /-- How that is written. -/
  name : String
deriving DecidableEq

namespace Zone

/-- Whether a clock is off by less than a day. -/
def isValid (z : Zone) : Bool := z.minutes.natAbs < 24 * 60

/-- Hours and minutes. -/
def text (z : Zone) : String :=
  (if z.minutes < 0 then "-" else "+") ++ Number.padded 2 (z.minutes.natAbs / 60) ++ ":" ++
    Number.padded 2 (z.minutes.natAbs % 60)

/-- The shown form of a zone: days are counted down and seconds up. -/
def shown (z : Zone) : String :=
  let seconds := 60 * (z.minutes % (24 * 60))
  "datetime.timezone(datetime.timedelta(" ++
    (if z.minutes = 0 then "0"
      else (if z.minutes < 0 then "days=-1, " else "") ++ "seconds=" ++ toString seconds) ++
    "), " ++ quoted z.name ++ ")"

end Zone

/-- A moment. -/
structure Moment where
  date : Date
  hour : Nat
  minute : Nat
  second : Nat
  /-- Millionths of a second. -/
  micro : Nat
  /-- How far the clock is ahead of universal time, if that is known. -/
  zone : Option Zone
deriving DecidableEq

namespace Moment

/-- Whether the calendar has the day, the day has the time, and the zone is one. -/
def isValid (m : Moment) : Bool :=
  m.date.isValid && m.hour < 24 && m.minute < 60 && m.second < 60 && m.zone.all Zone.isValid

/-- The day and the time; a fraction of a second has six digits. -/
def iso (m : Moment) : String :=
  m.date.iso ++ " " ++ joinWith ":" ([m.hour, m.minute, m.second].map (Number.padded 2)) ++
    (if m.micro = 0 then "" else "." ++ Number.padded 6 m.micro) ++
    (m.zone.map Zone.text).getD ""

/-- The shown form of a moment; zeros at the end of the time are left out. -/
def shown (m : Moment) : String :=
  let seconds := if m.micro ≠ 0 then [m.second, m.micro]
    else if m.second ≠ 0 then [m.second] else []
  let numbers := [m.date.year, m.date.month, m.date.day, m.hour, m.minute] ++ seconds
  let zone := (m.zone.map fun z => "tzinfo=" ++ z.shown).toList
  "datetime.datetime(" ++ joinWith ", " (numbers.map toString ++ zone) ++ ")"

/-- The millionths of a second from the start of the calendar on, by the clock. -/
def ticks (m : Moment) : Nat :=
  (((m.date.number * 24 + m.hour) * 60 + m.minute) * 60 + m.second) * 1000000 + m.micro

/-- Whether two moments are one: if the zones of both are known, at the same universal time. -/
def isSame (a b : Moment) : Bool :=
  match a.zone, b.zone with
  | some y, some z => (a.ticks : Int) - y.minutes * 60000000 == b.ticks - z.minutes * 60000000
  | none, none => a == b
  | _, _ => false

/-- The moment a second later. -/
def later (m : Moment) : Moment :=
  if m.second < 59 then { m with second := m.second + 1 }
  else if m.minute < 59 then { m with minute := m.minute + 1, second := 0 }
  else if m.hour < 23 then { m with hour := m.hour + 1, minute := 0, second := 0 }
  else { m with date := m.date.next, hour := 0, minute := 0, second := 0 }

end Moment

end Folio
