import TypeAtlas.Calendar.Reading
import TypeAtlas.Text.Lines
import TypeAtlas.Text.Quoted

/-!
# Points in time in ISO 8601

A caller hands over a time of its own in ISO 8601: a date by month and day or by week and weekday,
with hyphens or without, and after any one character a time of day with an optional distance from
UTC.  A text of the right form may still name no point in time, and then the first part that is out
of its range is reported.

Two liberties are taken.  One ASCII character between the numbers of a clock and the distance from
UTC is passed over, and so is everything after six digits of a fraction.  And a date by weeks ends
before the weekday if a hyphen and a digit follow the week, or if that makes the digits of the time
of day come in pairs.
-/

namespace TypeAtlas

/-- Why an ISO 8601 text is no point in time. -/
inductive IsoFault where
  /-- It does not have the form of one. -/
  | form
  /-- Its distance from UTC, in microseconds, is a day or more. -/
  | distance (microseconds : Int)
  | year (year : Int)
  | month | day | hour | minute | second
  deriving Repr, DecidableEq

namespace IsoFault

/-- A distance in time in words: the days, seconds and microseconds that are not zero. -/
def distanceText (microseconds : Int) : String :=
  let seconds := microseconds.fdiv 1000000
  let parts := [("days", seconds.fdiv 86400), ("seconds", seconds.fmod 86400),
    ("microseconds", microseconds.fmod 1000000)].filter fun part => part.2 ≠ 0
  "datetime.timedelta(" ++
    Text.join ", " (parts.map fun (unit, count) => unit ++ "=" ++ toString count) ++ ")"

def message (text : String) : IsoFault → String
  | form => "Invalid isoformat string: " ++ Text.quote text
  | distance microseconds =>
    "offset must be a timedelta strictly between -timedelta(hours=24) and " ++
      "timedelta(hours=24), not " ++ distanceText microseconds ++ "."
  | year count => "year " ++ toString count ++ " is out of range"
  | month => "month must be in 1..12"
  | day => "day is out of range for month"
  | hour => "hour must be in 0..23"
  | minute => "minute must be in 0..59"
  | second => "second must be in 0..59"

end IsoFault

/-! ## Weeks -/

namespace Calendar

/-- The number of days from the first day of 1970 to the first day of a year. -/
def daysBeforeYear (year : Nat) : Int :=
  let past : Int := (year : Int) - 1
  365 * past + past.fdiv 4 - past.fdiv 100 + past.fdiv 400 - 719162

/-- The weekday of the first day of a year; a Monday is zero. -/
def firstWeekday (year : Nat) : Nat := ((daysBeforeYear year + 3).fmod 7).toNat

/-- The number of weeks of a year: those of which it has four days or more. -/
def weeksInYear (year : Nat) : Nat :=
  if firstWeekday year = 3 || (firstWeekday year = 2 && isLeapYear year) then 53 else 52

/-- The date of a weekday, one to seven, of a week of a year. -/
def dateOfWeek (year week weekday : Nat) : Int × Nat × Nat :=
  let first := firstWeekday year
  let firstMonday := daysBeforeYear year - first + (if 3 < first then 7 else 0)
  dateOfDays (firstMonday + 7 * ((week : Int) - 1) + ((weekday : Int) - 1))

end Calendar

namespace Timestamp

/-! ## Dates -/

/-- The number that four decimal digits at the front write, and the rest. -/
def fourDigits? (chars : List Char) : Option (Nat × List Char) := do
  let (high, rest) ← twoDigits? chars
  let (low, rest) ← twoDigits? rest
  return (100 * high + low, rest)

/-- How many characters the date at the front of a text has. -/
def isoDateLength (chars : List Char) : Nat :=
  let isDigitAt (position : Nat) : Bool := ((chars[position]?).bind digit?).isSome
  let digits := ((chars.drop 7).takeWhile fun c => (digit? c).isSome).length
  match chars[4]?, chars[5]?, chars[8]? with
  | some '-', some 'W', some '-' => if isDigitAt 10 then 8 else 10
  | some '-', some 'W', _ => 8
  | some '-', _, _ => 10
  | some 'W', _, _ => if digits < 2 then 7 + digits else if digits % 2 = 1 then 7 else 8
  | _, _, _ => 8

/-- The date of a week, and perhaps a weekday, after the year. -/
def isoWeekDate? (year : Nat) (hyphens : Bool) (chars : List Char) :
    Option (Except IsoFault (Int × Nat × Nat)) := do
  let (week, rest) ← twoDigits? chars
  let weekday ← match hyphens, rest with
    | _, [] => some 1
    | true, ['-', c] => digit? c
    | false, [c] => digit? c
    | _, _ => none
  guard (1 ≤ week ∧ week ≤ Calendar.weeksInYear year ∧ 1 ≤ weekday ∧ weekday ≤ 7)
  return if year = 0 then .error .month else .ok (Calendar.dateOfWeek year week weekday)

def isoDate? (chars : List Char) : Option (Except IsoFault (Int × Nat × Nat)) := do
  let (year, rest) ← fourDigits? chars
  let hyphens := rest.head? = some '-'
  let rest := if hyphens then rest.drop 1 else rest
  match rest with
  | 'W' :: rest => isoWeekDate? year hyphens rest
  | _ =>
    let (month, rest) ← twoDigits? rest
    guard (!hyphens || rest.head? = some '-')
    let (day, rest) ← twoDigits? (if hyphens then rest.drop 1 else rest)
    guard rest.isEmpty
    return .ok (year, month, day)

/-! ## Times of day -/

/-- The numbers of a clock, as many as there are but not more than the given count, and then what is
left or the characters of a fraction.  Without colons between them the numbers follow each other. -/
def isoNumbers? (colons : Bool) :
    Nat → List Char → Option (List Nat × List Char × Option (List Char))
  | 0, rest => some ([], [], some rest)
  | count + 1, chars => do
    let (number, rest) ← twoDigits? chars
    match rest with
    | [] => return ([number], [], none)
    | [c] => if c.toNat < 128 then return ([number], [c], none) else none
    | mark :: next =>
      if mark = '.' || mark = ',' then return ([number], [], some next)
      else if colons && mark ≠ ':' then none
      else
        let (numbers, left, fraction) ← isoNumbers? colons count (if colons then next else rest)
        return (number :: numbers, left, fraction)

/-- The microseconds of a fraction, and what is left after its digits; the first six characters, or
all if there are fewer, are digits. -/
def isoFraction? (chars : List Char) : Option (Nat × List Char) := do
  guard ((chars.take 6).all fun c => (digit? c).isSome)
  return (microseconds (chars.take 6), (chars.drop 6).dropWhile fun c => (digit? c).isSome)

/-- Hours, and perhaps minutes, seconds and a fraction, and what is left. -/
def isoClock? (chars : List Char) : Option ((Nat × Nat × Nat × Nat) × List Char) := do
  let (numbers, left, fraction) ← isoNumbers? (chars[2]? = some ':') 3 chars
  let (microsecond, left) ← match fraction with
    | none => some (0, left)
    | some digits => isoFraction? digits
  return ((numbers.getD 0 0, numbers.getD 1 0, numbers.getD 2 0, microsecond), left)

/-- The distance from UTC in seconds that a sign and a clock stand for, rounded with a half away
from zero.  A distance of less than a second is none. -/
def isoDistance (ahead : Bool) (clock : Nat × Nat × Nat × Nat) : Except IsoFault Int :=
  let (hours, minutes, seconds, microseconds) := clock
  let whole : Int := 3600 * hours + 60 * minutes + seconds
  let total : Int := 1000000 * whole + microseconds
  let rounded := (total + 500000) / 1000000
  if whole = 0 then .ok 0
  else if 86400 ≤ whole then .error (.distance (if ahead then total else -total))
  else .ok (if ahead then rounded else -rounded)

/-- The distance from UTC at the end of a text, if there is one. -/
def isoZone? : List Char → Option (Except IsoFault (Option Int))
  | [] => some (.ok none)
  | ['Z'] => some (.ok (some 0))
  | sign :: rest => do
    guard (sign = '+' || sign = '-')
    let (clock, left) ← isoClock? rest
    guard left.isEmpty
    return (isoDistance (sign = '+') clock).map some

def isoTime? (chars : List Char) :
    Option ((Nat × Nat × Nat × Nat) × Except IsoFault (Option Int)) := do
  let clockChars := chars.takeWhile fun c => c ≠ '+' && c ≠ '-' && c ≠ 'Z'
  let zoneChars := chars.drop clockChars.length
  let (clock, left) ← isoClock? clockChars
  guard (left.isEmpty || !zoneChars.isEmpty)
  return (clock, ← isoZone? zoneChars)

/-! ## Both -/

/-- The point in time with the given parts, or the first part that is out of its range. -/
def ofIsoParts (year : Int) (month day hour minute second microsecond : Nat) (offset : Option Int) :
    Except IsoFault Timestamp :=
  match make? year.toNat month day hour minute second microsecond offset with
  | some time => if year < 1 then .error (.year year) else .ok time
  | none =>
    if year < 1 || 9999 < year then .error (.year year)
    else if month < 1 || 12 < month then .error .month
    else if day < 1 || Calendar.daysInMonth year.toNat month < day then .error .day
    else if 24 ≤ hour then .error .hour
    else if 60 ≤ minute then .error .minute
    else .error .second

def ofIso (text : String) : Except IsoFault Timestamp :=
  let chars := text.toList
  let length := isoDateLength chars
  let time := match chars.drop length with
    | [] => some ((0, 0, 0, 0), .ok none)
    | _ :: rest => isoTime? rest
  match isoDate? (chars.take length), time with
  | some date, some ((hour, minute, second, microsecond), zone) => do
    let offset ← zone
    let (year, month, day) ← date
    ofIsoParts year month day hour minute second microsecond offset
  | _, _ => .error .form

end Timestamp
end TypeAtlas
